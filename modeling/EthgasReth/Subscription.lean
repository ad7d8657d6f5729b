import EthgasReth.Lib.Trace
import EthgasReth.WireFormat

/-!
# The subscription to the producer

`subscription.rs`: the messages of the WebSocket and their size limit, the task that keeps a
connection up and forwards what it decodes, and the mailbox between it and the receiver.
-/

set_option autoImplicit false

namespace EthgasReth.Subscription

open EthgasReth.Primitives
open EthgasReth.Lib
open EthgasReth.Wire

/-! ## A message's text -/

def maxDecodedFlashblockBytes : Nat := 5 * 1024 * 1024

/-- What the decompressor makes of its input: its output, and the error it then ends with. -/
structure Decompressed where
  output : Bytes
  failure : Option String

def isWhitespace (char : Char) : Bool :=
  let code := char.toNat
  (0x9 ≤ code && code ≤ 0xd) || code = 0x20 || code = 0x85 || code = 0xa0 || code = 0x1680 ||
    (0x2000 ≤ code && code ≤ 0x200a) || code = 0x2028 || code = 0x2029 || code = 0x202f ||
    code = 0x205f || code = 0x3000

/-- Whether the text is a JSON object that was sent as it is. -/
def looksLikeJson (text : String) : Bool :=
  (text.toList.dropWhile isWhitespace).head? = some '\x7b'

def fromUtf8 (bytes : Bytes) : Option String := String.fromUTF8? ⟨bytes.toArray⟩

def ensureWithinSizeLimit (len : Nat) : Except DecodeError Unit :=
  if len ≤ maxDecodedFlashblockBytes then .ok () else .error (.tooLarge len)

/-- `read_to_end` behind `take(limit)`: nothing is read past the limit, not even an error. -/
def readToEnd (limit : Nat) (stream : Decompressed) : Except DecodeError Bytes :=
  if limit ≤ stream.output.length then .ok (stream.output.take limit)
  else match stream.failure with
    | none => .ok stream.output
    | some detail => .error (.decompression detail)

section Text

variable (decompress : Bytes → Decompressed)

def tryParseMessage (bytes : Bytes) : Except DecodeError String :=
  match (fromUtf8 bytes).filter looksLikeJson with
  | some text => do
      ensureWithinSizeLimit bytes.length
      return text
  | none => do
      let decompressed ← readToEnd (maxDecodedFlashblockBytes + 1) (decompress bytes)
      ensureWithinSizeLimit decompressed.length
      match fromUtf8 decompressed with
      | some text => return text
      | none => .error .utf8

variable (codecs : Codecs) (serde : Serde)

def tryDecodeMessage (bytes : Bytes) : Except DecodeError (WireFlashBlock × WireShape) := do
  let text ← tryParseMessage decompress bytes
  parseFlashblockJson codecs serde text

def tryDecodePlaintextMessage (text : String) :
    Except DecodeError (WireFlashBlock × WireShape) := do
  ensureWithinSizeLimit text.utf8ByteSize
  parseFlashblockJson codecs serde text

end Text

/-- The text is all that the message carries, sent as it is or compressed. -/
def Whole (decompress : Bytes → Decompressed) (bytes : Bytes) (text : String) : Prop :=
  (fromUtf8 bytes = some text ∧ looksLikeJson text = true) ∨
    (fromUtf8 bytes).filter looksLikeJson = none ∧ (decompress bytes).failure = none ∧
      fromUtf8 (decompress bytes).output = some text

section Whole

variable {decompress : Bytes → Decompressed} {bytes : Bytes} {text : String}

theorem utf8ByteSize_fromUtf8 (read : fromUtf8 bytes = some text) :
    text.utf8ByteSize = bytes.length := by
  unfold fromUtf8 String.fromUTF8? at read
  split at read
  · cases read
    rfl
  · cases read

theorem ensureWithinSizeLimit_ok {len : Nat} {passed : Unit} :
    ensureWithinSizeLimit len = .ok passed ↔ len ≤ maxDecodedFlashblockBytes := by
  unfold ensureWithinSizeLimit
  split
  · rename_i small
    exact iff_of_true rfl small
  · rename_i large
    refine iff_of_false ?_ large
    intro impossible
    cases impossible

theorem readToEnd_ok {limit : Nat} {stream : Decompressed} {buffer : Bytes}
    (read : readToEnd limit stream = .ok buffer) :
    (limit ≤ stream.output.length ∧ buffer.length = limit) ∨
      stream.output.length < limit ∧ stream.failure = none ∧ buffer = stream.output := by
  unfold readToEnd at read
  split at read
  · rename_i long
    cases read
    exact Or.inl ⟨long, by rw [List.length_take]; omega⟩
  · rename_i short
    split at read
    · rename_i complete
      cases read
      exact Or.inr ⟨by omega, complete, rfl⟩
    · cases read

theorem readToEnd_complete {limit : Nat} {stream : Decompressed}
    (short : stream.output.length < limit) (complete : stream.failure = none) :
    readToEnd limit stream = .ok stream.output := by
  rw [readToEnd, if_neg (by omega), complete]

/-- A message is parsed to all that it carries, or not at all, and never to a text beyond the
limit; a decompressor is read at most one byte beyond it. -/
theorem tryParseMessage_iff (decompress : Bytes → Decompressed) (bytes : Bytes) :
    (∀ text, tryParseMessage decompress bytes = .ok text ↔
        Whole decompress bytes text ∧ text.utf8ByteSize ≤ maxDecodedFlashblockBytes) ∧
      ∀ buffer, readToEnd (maxDecodedFlashblockBytes + 1) (decompress bytes) = .ok buffer →
        buffer.length ≤ maxDecodedFlashblockBytes + 1 := by
  constructor
  · intro text
    unfold tryParseMessage Whole
    cases plain : (fromUtf8 bytes).filter looksLikeJson with
    | some plainText =>
        obtain ⟨isText, looks⟩ := Option.filter_eq_some_iff.mp plain
        have size := utf8ByteSize_fromUtf8 isText
        constructor
        · intro parsed
          obtain ⟨_, within, isOk⟩ := bind_eq_ok parsed
          cases isOk
          exact ⟨Or.inl ⟨isText, looks⟩, by rw [size]; exact ensureWithinSizeLimit_ok.mp within⟩
        · intro whole
          obtain ⟨⟨isOther, -⟩ | ⟨impossible, -⟩, within⟩ := whole
          · cases isText.symm.trans isOther
            rw [size] at within
            have passes := (@ensureWithinSizeLimit_ok bytes.length ()).mpr within
            simp only [passes]
            rfl
          · cases impossible
    | none =>
        constructor
        · intro parsed
          obtain ⟨buffer, read, parsed⟩ := bind_eq_ok parsed
          obtain ⟨_, within, parsed⟩ := bind_eq_ok parsed
          have small := ensureWithinSizeLimit_ok.mp within
          rcases readToEnd_ok read with ⟨-, full⟩ | ⟨-, complete, isOutput⟩
          · omega
          · subst isOutput
            split at parsed
            · rename_i decoded isText
              cases parsed
              exact ⟨Or.inr ⟨rfl, complete, isText⟩,
                by rw [utf8ByteSize_fromUtf8 isText]; exact small⟩
            · cases parsed
        · intro whole
          obtain ⟨⟨isText, looks⟩ | ⟨-, complete, isText⟩, within⟩ := whole
          · have isPlain : (fromUtf8 bytes).filter looksLikeJson = some text :=
              Option.filter_eq_some_iff.mpr ⟨isText, looks⟩
            cases plain.symm.trans isPlain
          · rw [utf8ByteSize_fromUtf8 isText] at within
            have read := readToEnd_complete (show (decompress bytes).output.length <
              maxDecodedFlashblockBytes + 1 by omega) complete
            have passes := (@ensureWithinSizeLimit_ok _ ()).mpr within
            simp only [read, Except.bind, bind, passes, isText]
            rfl
  · intro buffer read
    rcases readToEnd_ok read with ⟨-, full⟩ | ⟨short, -, isOutput⟩
    · omega
    · subst isOutput
      omega

end Whole

/-! ## The connection -/

inductive Message where
  | binary (bytes : Bytes)
  | text (text : String)
  | close
  | pong
  | other

inductive Incoming where
  | message (message : Message)
  | error

/-- Where the connection's task stands: between connections, waiting to reconnect, on a
connection with a pong due or not, or there with a flashblock that the mailbox has yet to
take. -/
inductive Link where
  | connecting
  | sleeping
  | connected (awaitingPong : Bool)
  | forwarding (awaitingPong : Bool) (payload : WireFlashBlock)

def maxWarnedUnknownKeys : Nat := 64

def mailboxCapacity : Nat := 100

def maxBackoff : Nat := 2

def nextBackoff (backoff : Nat) : Nat := min (backoff * 2) maxBackoff

/-- Both tasks of the subscriber, with the keys it has warned about and the three counters of
`record_wire_shape`. -/
structure FlashblocksSubscriber where
  link : Link
  backoff : Nat
  warnedKeys : List String
  unknownWireFields : Nat
  wireSlotNumberMissing : Nat
  wireRequestsMissing : Nat
  mailbox : List WireFlashBlock

def FlashblocksSubscriber.start : FlashblocksSubscriber where
  link := .connecting
  backoff := 1
  warnedKeys := []
  unknownWireFields := 0
  wireSlotNumberMissing := 0
  wireRequestsMissing := 0
  mailbox := []

def warn (warnedKeys : List String) (key : String) : List String :=
  if warnedKeys.length < maxWarnedUnknownKeys ∧ key ∉ warnedKeys then warnedKeys ++ [key]
  else warnedKeys

def recordWireShape (shape : WireShape) (subscriber : FlashblocksSubscriber) :
    FlashblocksSubscriber :=
  { subscriber with
    warnedKeys := shape.unknownKeys.foldl warn subscriber.warnedKeys
    unknownWireFields := subscriber.unknownWireFields + shape.unknownKeys.length
    wireSlotNumberMissing := subscriber.wireSlotNumberMissing +
      shape.baseWithoutSlotNumber.toNat
    wireRequestsMissing := subscriber.wireRequestsMissing + shape.diffWithoutRequests.toNat }

/-- What a run logs: connections made and refused, what a connection yields, pings sent, pings
that failed, ticks that found the last ping unanswered, the waits before a reconnect in
seconds, and flashblocks put into the mailbox and handed to the receiver. -/
inductive Event where
  | connected
  | refused
  | incoming (incoming : Incoming)
  | pinged
  | pingFailed
  | unanswered
  | slept (seconds : Nat)
  | forwarded
  | delivered (payload : WireFlashBlock)

structure Decoder where
  decompress : Bytes → Decompressed
  codecs : Codecs
  serde : Serde

def Decoder.decode (decoder : Decoder) : Message → Option (WireFlashBlock × WireShape)
  | .binary bytes => (tryDecodeMessage decoder.decompress decoder.codecs decoder.serde bytes).toOption
  | .text text => (tryDecodePlaintextMessage decoder.codecs decoder.serde text).toOption
  | .close | .pong | .other => none

variable (decoder : Decoder)

def onIncoming (awaitingPong : Bool) (subscriber : FlashblocksSubscriber) :
    Incoming → FlashblocksSubscriber
  | .error => { subscriber with link := .connecting }
  | .message .close => { subscriber with link := .connecting }
  | .message .pong => { subscriber with link := .connected false }
  | .message message =>
      match decoder.decode message with
      | some (payload, shape) =>
          { recordWireShape shape subscriber with link := .forwarding awaitingPong payload }
      | none => subscriber

/-- A tick that finds a pong due, or a ping that cannot be sent, ends the connection. -/
inductive Step : FlashblocksSubscriber → Event → FlashblocksSubscriber → Prop
  | connect {subscriber : FlashblocksSubscriber} (connecting : subscriber.link = .connecting) :
      Step subscriber .connected { subscriber with link := .connected false, backoff := 1 }
  | refuse {subscriber : FlashblocksSubscriber} (connecting : subscriber.link = .connecting) :
      Step subscriber .refused { subscriber with link := .sleeping }
  | sleep {subscriber : FlashblocksSubscriber} (sleeping : subscriber.link = .sleeping) :
      Step subscriber (.slept subscriber.backoff) { subscriber with
        link := .connecting
        backoff := nextBackoff subscriber.backoff }
  | receive {subscriber : FlashblocksSubscriber} {awaitingPong : Bool}
      (connected : subscriber.link = .connected awaitingPong) (incoming : Incoming) :
      Step subscriber (.incoming incoming) (onIncoming decoder awaitingPong subscriber incoming)
  | ping {subscriber : FlashblocksSubscriber} (connected : subscriber.link = .connected false) :
      Step subscriber .pinged { subscriber with link := .connected true }
  | failPing {subscriber : FlashblocksSubscriber}
      (connected : subscriber.link = .connected false) :
      Step subscriber .pingFailed { subscriber with link := .sleeping }
  | giveUp {subscriber : FlashblocksSubscriber} (connected : subscriber.link = .connected true) :
      Step subscriber .unanswered { subscriber with link := .sleeping }
  | forward {subscriber : FlashblocksSubscriber} {awaitingPong : Bool} {payload : WireFlashBlock}
      (forwarding : subscriber.link = .forwarding awaitingPong payload)
      (room : subscriber.mailbox.length < mailboxCapacity) :
      Step subscriber .forwarded { subscriber with
        link := .connected awaitingPong
        mailbox := subscriber.mailbox ++ [payload] }
  | deliver {subscriber : FlashblocksSubscriber} {payload : WireFlashBlock}
      {rest : List WireFlashBlock} (head : subscriber.mailbox = payload :: rest) :
      Step subscriber (.delivered payload) { subscriber with mailbox := rest }

abbrev Runs (log : List Event) (subscriber : FlashblocksSubscriber) : Prop :=
  Trace (Step decoder) .start log subscriber

/-! ## Forwarding -/

def Decoder.ofEvent : Event → Option (WireFlashBlock × WireShape)
  | .incoming (.message message) => decoder.decode message
  | _ => none

def Decoder.decoded (log : List Event) : List (WireFlashBlock × WireShape) :=
  log.filterMap decoder.ofEvent

def deliveredBy : Event → Option WireFlashBlock
  | .delivered payload => some payload
  | _ => none

def delivered (log : List Event) : List WireFlashBlock := log.filterMap deliveredBy

def inFlight : Link → List WireFlashBlock
  | .forwarding _ payload => [payload]
  | _ => []

structure Forwards (log : List Event) (subscriber : FlashblocksSubscriber) : Prop where
  order : delivered log ++ subscriber.mailbox ++ inFlight subscriber.link =
    (decoder.decoded log).map Prod.fst
  bounded : subscriber.mailbox.length ≤ mailboxCapacity
  warned : subscriber.warnedKeys =
    ((decoder.decoded log).flatMap fun entry => entry.2.unknownKeys).foldl warn []
  counted : subscriber.unknownWireFields =
    ((decoder.decoded log).flatMap fun entry => entry.2.unknownKeys).length
  slots : subscriber.wireSlotNumberMissing =
    ((decoder.decoded log).filter fun entry => entry.2.baseWithoutSlotNumber).length
  requests : subscriber.wireRequestsMissing =
    ((decoder.decoded log).filter fun entry => entry.2.diffWithoutRequests).length

section Forwards

variable {decoder} {log : List Event} {subscriber next : FlashblocksSubscriber}

theorem Forwards.quiet (forwards : Forwards decoder log subscriber) {event : Event}
    (noDecode : decoder.ofEvent event = none) (noDelivery : deliveredBy event = none)
    (way : next.mailbox ++ inFlight next.link = subscriber.mailbox ++ inFlight subscriber.link)
    (bounded : next.mailbox.length ≤ mailboxCapacity)
    (warned : next.warnedKeys = subscriber.warnedKeys)
    (counted : next.unknownWireFields = subscriber.unknownWireFields)
    (slots : next.wireSlotNumberMissing = subscriber.wireSlotNumberMissing)
    (requests : next.wireRequestsMissing = subscriber.wireRequestsMissing) :
    Forwards decoder (log ++ [event]) next := by
  have sameDecoded : decoder.decoded (log ++ [event]) = decoder.decoded log := by
    simp [Decoder.decoded, List.filterMap_append, noDecode]
  have sameDelivered : delivered (log ++ [event]) = delivered log := by
    simp [delivered, List.filterMap_append, noDelivery]
  constructor
  · rw [sameDecoded, sameDelivered, List.append_assoc, way, ← List.append_assoc, forwards.order]
  · exact bounded
  · rw [warned, forwards.warned, sameDecoded]
  · rw [counted, forwards.counted, sameDecoded]
  · rw [slots, forwards.slots, sameDecoded]
  · rw [requests, forwards.requests, sameDecoded]

theorem onIncoming_decoded {awaitingPong : Bool} {message : Message} {payload : WireFlashBlock}
    {shape : WireShape} (decodes : decoder.decode message = some (payload, shape)) :
    onIncoming decoder awaitingPong subscriber (.message message) =
      { recordWireShape shape subscriber with link := .forwarding awaitingPong payload } := by
  cases message with
  | close | pong | other => cases decodes
  | binary | text => simp only [onIncoming, decodes]

theorem Forwards.receive (forwards : Forwards decoder log subscriber) {awaitingPong : Bool}
    (connected : subscriber.link = .connected awaitingPong) {message : Message}
    {payload : WireFlashBlock} {shape : WireShape}
    (decodes : decoder.decode message = some (payload, shape)) :
    Forwards decoder (log ++ [.incoming (.message message)])
      { recordWireShape shape subscriber with link := .forwarding awaitingPong payload } := by
  have decoded : decoder.decoded (log ++ [.incoming (.message message)]) =
      decoder.decoded log ++ [(payload, shape)] := by
    simp [Decoder.decoded, List.filterMap_append, Decoder.ofEvent, decodes]
  have sameDelivered : delivered (log ++ [.incoming (.message message)]) = delivered log := by
    simp [delivered, List.filterMap_append, deliveredBy]
  have order := forwards.order
  rw [connected] at order
  simp only [inFlight, List.append_nil] at order
  constructor
  · simp only [decoded, sameDelivered, List.map_append, ← order]
    rfl
  · exact forwards.bounded
  · simp only [decoded, List.flatMap_append, List.foldl_append, ← forwards.warned]
    simp [recordWireShape]
  · simp only [decoded, List.flatMap_append, List.length_append, ← forwards.counted]
    simp [recordWireShape]
  · simp only [decoded, List.filter_append, List.length_append, ← forwards.slots]
    cases missing : shape.baseWithoutSlotNumber <;> simp [recordWireShape, missing]
  · simp only [decoded, List.filter_append, List.length_append, ← forwards.requests]
    cases missing : shape.diffWithoutRequests <;> simp [recordWireShape, missing]

theorem forwards_step (forwards : Forwards decoder log subscriber) {event : Event}
    (taken : Step decoder subscriber event next) : Forwards decoder (log ++ [event]) next := by
  have bounded := forwards.bounded
  cases taken with
  | connect connecting =>
      exact forwards.quiet rfl rfl (by simp [inFlight, connecting]) bounded rfl rfl rfl rfl
  | refuse connecting =>
      exact forwards.quiet rfl rfl (by simp [inFlight, connecting]) bounded rfl rfl rfl rfl
  | sleep sleeping =>
      exact forwards.quiet rfl rfl (by simp [inFlight, sleeping]) bounded rfl rfl rfl rfl
  | ping connected =>
      exact forwards.quiet rfl rfl (by simp [inFlight, connected]) bounded rfl rfl rfl rfl
  | failPing connected =>
      exact forwards.quiet rfl rfl (by simp [inFlight, connected]) bounded rfl rfl rfl rfl
  | giveUp connected =>
      exact forwards.quiet rfl rfl (by simp [inFlight, connected]) bounded rfl rfl rfl rfl
  | forward forwarding room =>
      refine forwards.quiet rfl rfl (by simp [inFlight, forwarding]) ?_ rfl rfl rfl rfl
      rw [List.length_append, List.length_singleton]
      omega
  | @deliver payload rest head =>
      have order := forwards.order
      rw [head] at order
      rw [head, List.length_cons] at bounded
      have sameDecoded : decoder.decoded (log ++ [.delivered payload]) = decoder.decoded log := by
        simp [Decoder.decoded, List.filterMap_append, Decoder.ofEvent]
      constructor
      · rw [sameDecoded, ← order]
        simp [delivered, List.filterMap_append, deliveredBy]
      · dsimp only
        omega
      · rw [sameDecoded]
        exact forwards.warned
      · rw [sameDecoded]
        exact forwards.counted
      · rw [sameDecoded]
        exact forwards.slots
      · rw [sameDecoded]
        exact forwards.requests
  | @receive awaitingPong connected incoming =>
      have silent : ∀ {link : Link}, inFlight link = [] →
          decoder.ofEvent (.incoming incoming) = none →
          Forwards decoder (log ++ [.incoming incoming]) { subscriber with link := link } :=
        fun empty noDecode => forwards.quiet noDecode rfl (by rw [empty, connected]; rfl)
          bounded rfl rfl rfl rfl
      cases incoming with
      | error => exact silent rfl rfl
      | message message =>
          cases decodes : decoder.decode message with
          | none =>
              have same : subscriber = { subscriber with link := .connected awaitingPong } := by
                rw [← connected]
              cases message with
              | close => exact silent rfl rfl
              | pong => exact silent rfl rfl
              | binary | text | other =>
                  simp only [onIncoming, decodes]
                  rw [same]
                  exact silent rfl decodes
          | some decoded =>
              obtain ⟨payload, shape⟩ := decoded
              rw [onIncoming_decoded decodes]
              exact forwards.receive connected decodes

theorem warn_keeps {warnedKeys : List String} (distinct : warnedKeys.Nodup)
    (few : warnedKeys.length ≤ maxWarnedUnknownKeys) (key : String) :
    (warn warnedKeys key).Nodup ∧ (warn warnedKeys key).length ≤ maxWarnedUnknownKeys ∧
      (key ∈ warn warnedKeys key ∨ (warn warnedKeys key).length = maxWarnedUnknownKeys) ∧
      warnedKeys ⊆ warn warnedKeys key := by
  unfold warn
  split
  · rename_i room
    refine ⟨?_, ?_, Or.inl (by simp), List.subset_append_left _ _⟩
    · rw [List.nodup_append]
      refine ⟨distinct, by simp, ?_⟩
      intro earlier member other isOther
      rw [List.mem_singleton.mp isOther]
      intro same
      exact room.2 (same ▸ member)
    · rw [List.length_append, List.length_singleton]
      omega
  · rename_i noRoom
    refine ⟨distinct, few, ?_, List.Subset.refl _⟩
    by_cases known : key ∈ warnedKeys
    · exact Or.inl known
    · have full : ¬ warnedKeys.length < maxWarnedUnknownKeys := fun room => noRoom ⟨room, known⟩
      exact Or.inr (by omega)

/-- Every key is warned about once, until there have been as many as are warned about. -/
theorem warned_keys (keys warnedKeys : List String) (distinct : warnedKeys.Nodup)
    (few : warnedKeys.length ≤ maxWarnedUnknownKeys) :
    (keys.foldl warn warnedKeys).Nodup ∧
      (keys.foldl warn warnedKeys).length ≤ maxWarnedUnknownKeys ∧
      warnedKeys ⊆ keys.foldl warn warnedKeys ∧
      ∀ key ∈ keys, key ∈ keys.foldl warn warnedKeys ∨
        (keys.foldl warn warnedKeys).length = maxWarnedUnknownKeys := by
  induction keys generalizing warnedKeys with
  | nil => exact ⟨distinct, few, List.Subset.refl _, by simp⟩
  | cons key rest ih =>
      obtain ⟨stillDistinct, stillFew, noted, kept⟩ := warn_keeps distinct few key
      obtain ⟨restDistinct, restFew, restKept, restNoted⟩ := ih _ stillDistinct stillFew
      refine ⟨restDistinct, restFew, List.Subset.trans kept restKept, ?_⟩
      intro other member
      rcases List.mem_cons.mp member with isKey | isRest
      · subst isKey
        rcases noted with isNoted | full
        · exact Or.inl (restKept isNoted)
        · have atLeast := (stillDistinct.subperm restKept).length_le
          right
          rw [List.foldl_cons]
          omega
      · exact restNoted other isRest

/-- In every run the receiver is handed what the connections have carried that decodes, once
and in order, and what it has not been handed yet waits in a bounded mailbox.  Every unknown
key is counted, and warned about once up to a bound. -/
theorem subscriber_forwards (run : Runs decoder log subscriber) :
    delivered log ++ subscriber.mailbox ++ inFlight subscriber.link =
        (decoder.decoded log).map Prod.fst ∧
      subscriber.mailbox.length ≤ mailboxCapacity ∧
      subscriber.unknownWireFields =
        ((decoder.decoded log).flatMap fun entry => entry.2.unknownKeys).length ∧
      subscriber.warnedKeys.Nodup ∧ subscriber.warnedKeys.length ≤ maxWarnedUnknownKeys ∧
      ∀ entry ∈ decoder.decoded log, ∀ key ∈ entry.2.unknownKeys,
        key ∈ subscriber.warnedKeys ∨ subscriber.warnedKeys.length = maxWarnedUnknownKeys := by
  have forwards : Forwards decoder log subscriber :=
    @Trace.invariant _ _ _ _ (Forwards decoder) ⟨rfl, Nat.zero_le _, rfl, rfl, rfl, rfl⟩
      (fun _ _ _ _ _ forwards taken => forwards_step forwards taken) _ _ run
  obtain ⟨distinct, few, -, noted⟩ := warned_keys
    ((decoder.decoded log).flatMap fun entry => entry.2.unknownKeys) [] List.nodup_nil
    (Nat.zero_le _)
  rw [← forwards.warned] at distinct few noted
  refine ⟨forwards.order, forwards.bounded, forwards.counted, distinct, few, ?_⟩
  intro entry member key isKey
  exact noted key (List.mem_flatMap.mpr ⟨entry, member, isKey⟩)

end Forwards

def sampleDecoder : Decoder where
  decompress := fun bytes => { output := bytes, failure := none }
  codecs := hexCodecs
  serde := sampleSerde

theorem decode_text (decoder : Decoder) {text : String} {decoded : WireFlashBlock × WireShape}
    (small : text.utf8ByteSize ≤ maxDecodedFlashblockBytes)
    (parsed : parseFlashblockJson decoder.codecs decoder.serde text = .ok decoded) :
    decoder.decode (.text text) = some decoded := by
  have passes := (@ensureWithinSizeLimit_ok _ ()).mpr small
  simp only [Decoder.decode, tryDecodePlaintextMessage, passes, bind, Except.bind]
  rw [parsed]
  rfl

theorem sampleDecoder_decode : ∃ decoded, sampleDecoder.decode (.text "") = some decoded := by
  obtain ⟨decoded, parsed⟩ := sampleSerde_parse ""
  exact ⟨decoded, decode_text sampleDecoder (by decide) parsed⟩

theorem subscriber_forwards_sample :
    ∃ (log : List Event) (subscriber : FlashblocksSubscriber),
      (delivered log).length = 1 ∧ subscriber.mailbox.length = 1 ∧
      (delivered log ++ subscriber.mailbox ++ inFlight subscriber.link =
          (sampleDecoder.decoded log).map Prod.fst ∧
        subscriber.mailbox.length ≤ mailboxCapacity ∧
        subscriber.unknownWireFields =
          ((sampleDecoder.decoded log).flatMap fun entry => entry.2.unknownKeys).length ∧
        subscriber.warnedKeys.Nodup ∧ subscriber.warnedKeys.length ≤ maxWarnedUnknownKeys ∧
        ∀ entry ∈ sampleDecoder.decoded log, ∀ key ∈ entry.2.unknownKeys,
          key ∈ subscriber.warnedKeys ∨ subscriber.warnedKeys.length = maxWarnedUnknownKeys) := by
  obtain ⟨⟨payload, shape⟩, decodes⟩ := sampleDecoder_decode
  have receives : ∀ subscriber : FlashblocksSubscriber,
      onIncoming sampleDecoder false subscriber (.message (.text "")) =
        { recordWireShape shape subscriber with link := .forwarding false payload } :=
    fun _ => onIncoming_decoded decodes
  have roomForOne : 0 < mailboxCapacity := by decide
  have roomForTwo : 1 < mailboxCapacity := by decide
  have connected := Trace.nil.snoc (@Step.connect sampleDecoder .start rfl)
  have first := connected.snoc (.receive rfl (.message (.text "")))
  rw [receives] at first
  have forwarded := first.snoc (.forward rfl roomForOne)
  have second := forwarded.snoc (.receive rfl (.message (.text "")))
  rw [receives] at second
  have both := second.snoc (.forward rfl roomForTwo)
  exact ⟨_, _, rfl, rfl, subscriber_forwards (both.snoc (.deliver rfl))⟩

/-! ## Keeping the connection alive -/

def pongDue (log : List Event) : Bool :=
  log.foldl (fun due event =>
    match event with
    | .pinged => true
    | .connected | .incoming (.message .pong) => false
    | _ => due) false

/-- The wait that a failure leads to: doubled after every wait, from one second again after
every connection. -/
def waitAfter (log : List Event) : Nat :=
  log.foldl (fun wait event =>
    match event with
    | .connected => 1
    | .slept _ => 2
    | _ => wait) 1

section Alive

variable {decoder} {log : List Event} {subscriber next : FlashblocksSubscriber}

structure Alive (log : List Event) (subscriber : FlashblocksSubscriber) : Prop where
  due : ∀ awaitingPong, (subscriber.link = .connected awaitingPong ∨
    ∃ payload, subscriber.link = .forwarding awaitingPong payload) → pongDue log = awaitingPong
  backoff : subscriber.backoff = waitAfter log

theorem pongDue_concat (log : List Event) (event : Event) :
    pongDue (log ++ [event]) =
      match event with
      | .pinged => true
      | .connected | .incoming (.message .pong) => false
      | _ => pongDue log := by
  rw [pongDue, List.foldl_concat]
  rfl

theorem waitAfter_concat (log : List Event) (event : Event) :
    waitAfter (log ++ [event]) =
      match event with
      | .connected => 1
      | .slept _ => 2
      | _ => waitAfter log := by
  rw [waitAfter, List.foldl_concat]
  rfl

theorem waitAfter_bounds (log : List Event) : waitAfter log = 1 ∨ waitAfter log = 2 := by
  induction log using List.reverseRecOn with
  | nil => exact Or.inl rfl
  | append_singleton log event ih =>
      rw [waitAfter_concat]
      cases event <;> simp [ih]

theorem alive_step (alive : Alive log subscriber) {event : Event}
    (taken : Step decoder subscriber event next) : Alive (log ++ [event]) next := by
  have backoff := alive.backoff
  cases taken with
  | connect connecting =>
      constructor
      · intro awaitingPong isLink
        rw [pongDue_concat]
        simpa using isLink
      · rw [waitAfter_concat]
  | refuse connecting => exact ⟨by simp, by rw [waitAfter_concat]; exact backoff⟩
  | sleep sleeping =>
      refine ⟨by simp, ?_⟩
      rw [waitAfter_concat]
      rcases waitAfter_bounds log with isOne | isTwo
      · rw [← backoff] at isOne
        simp [isOne, nextBackoff, maxBackoff]
      · rw [← backoff] at isTwo
        simp [isTwo, nextBackoff, maxBackoff]
  | ping connected =>
      constructor
      · intro awaitingPong isLink
        rw [pongDue_concat]
        simpa using isLink
      · rw [waitAfter_concat]
        exact backoff
  | failPing connected => exact ⟨by simp, by rw [waitAfter_concat]; exact backoff⟩
  | giveUp connected => exact ⟨by simp, by rw [waitAfter_concat]; exact backoff⟩
  | @forward awaitingPong payload forwarding room =>
      constructor
      · intro other isLink
        rw [pongDue_concat]
        have same : awaitingPong = other := by simpa using isLink
        rw [← same]
        exact alive.due awaitingPong (Or.inr ⟨payload, forwarding⟩)
      · rw [waitAfter_concat]
        exact backoff
  | deliver head =>
      constructor
      · intro awaitingPong isLink
        rw [pongDue_concat]
        exact alive.due awaitingPong isLink
      · rw [waitAfter_concat]
        exact backoff
  | @receive awaitingPong connected incoming =>
      have due := alive.due awaitingPong (Or.inl connected)
      have sameBackoff : (onIncoming decoder awaitingPong subscriber incoming).backoff =
          subscriber.backoff := by
        unfold onIncoming
        split <;> try rfl
        split <;> rfl
      constructor
      · intro other isLink
        rw [pongDue_concat]
        unfold onIncoming at isLink
        split at isLink
        · simp at isLink
        · simp at isLink
        · simpa using isLink
        · rename_i message notClose notPong
          have same : awaitingPong = other := by
            split at isLink
            · simpa using isLink
            · simpa [connected] using isLink
          cases message with
          | pong => exact absurd rfl notPong
          | binary | text | close | other => exact due.trans same
      · rw [sameBackoff, waitAfter_concat]
        exact backoff

theorem runs_alive (run : Runs decoder log subscriber) : Alive log subscriber :=
  @Trace.invariant _ _ _ _ Alive ⟨by simp [FlashblocksSubscriber.start], rfl⟩
    (fun _ _ _ _ _ alive taken => alive_step alive taken) _ _ run

theorem pongDue_unanswered {before middle : List Event} (sameConnection : .connected ∉ middle)
    (unanswered : .incoming (.message .pong) ∉ middle) :
    pongDue (before ++ .pinged :: middle) = true := by
  induction middle using List.reverseRecOn with
  | nil => rw [pongDue_concat]
  | append_singleton middle event ih =>
      simp only [List.mem_append, List.mem_singleton, not_or] at sameConnection unanswered
      have due := ih sameConnection.1 unanswered.1
      rw [← List.cons_append, ← List.append_assoc, pongDue_concat]
      split
      · rfl
      · exact absurd rfl sameConnection.2
      · exact absurd rfl unanswered.2
      · exact due

theorem waitAfter_eq_two {before : List Event} :
    waitAfter before = 2 ↔ ∃ earlier seconds later,
      before = earlier ++ .slept seconds :: later ∧ .connected ∉ later := by
  induction before using List.reverseRecOn with
  | nil => simp [waitAfter]
  | append_singleton before event ih =>
      rw [waitAfter_concat]
      constructor
      · intro isTwo
        split at isTwo
        · cases isTwo
        · rename_i seconds
          exact ⟨before, seconds, [], rfl, List.not_mem_nil⟩
        · rename_i notConnected notSlept
          obtain ⟨earlier, seconds, later, rfl, sameTry⟩ := ih.mp isTwo
          refine ⟨earlier, seconds, later ++ [event], by simp, ?_⟩
          rw [List.mem_append, List.mem_singleton, not_or]
          exact ⟨sameTry, fun isConnected => notConnected isConnected.symm⟩
      · intro waited
        obtain ⟨earlier, seconds, later, isLog, sameTry⟩ := waited
        rcases List.eq_nil_or_concat' later with rfl | ⟨middle, last, rfl⟩
        · obtain ⟨-, same⟩ := List.append_inj' isLog rfl
          cases same
          rfl
        · rw [← List.cons_append, ← List.append_assoc] at isLog
          obtain ⟨rfl, same⟩ := List.append_inj' isLog rfl
          cases same
          rw [List.mem_append, List.mem_singleton, not_or] at sameTry
          have isTwo := ih.mpr ⟨earlier, seconds, middle, rfl, sameTry.1⟩
          split
          · exact absurd rfl sameTry.2
          · rfl
          · exact isTwo

/-- In every run a connection that is pinged twice has answered in between, a tick that finds
no answer gives the connection up, and the wait before a reconnect is one second, or two when
it follows another wait without a connection in between. -/
theorem connection_kept_alive (run : Runs decoder log subscriber) :
    (∀ before middle after, log = before ++ .pinged :: middle ++ .pinged :: after →
        .connected ∈ middle ∨ .incoming (.message .pong) ∈ middle) ∧
      (∀ before after, log = before ++ .unanswered :: after → pongDue before = true) ∧
      ∀ before seconds after, log = before ++ .slept seconds :: after →
        (seconds = 1 ∨ seconds = 2) ∧ (seconds = 2 ↔ ∃ earlier wait later,
          before = earlier ++ .slept wait :: later ∧ .connected ∉ later) := by
  refine ⟨?_, ?_, ?_⟩
  · intro before middle after isLog
    subst isLog
    obtain ⟨state, next, reached, taken⟩ := run.cut
    by_contra neither
    rw [not_or] at neither
    have due := @pongDue_unanswered before middle neither.1 neither.2
    cases taken with
    | ping connected =>
        have notDue := (runs_alive reached).due false (Or.inl connected)
        rw [due] at notDue
        cases notDue
  · intro before after isLog
    subst isLog
    obtain ⟨state, next, reached, taken⟩ := run.cut
    cases taken with
    | giveUp connected => exact (runs_alive reached).due true (Or.inl connected)
  · intro before seconds after isLog
    subst isLog
    obtain ⟨state, next, reached, taken⟩ := run.cut
    cases taken with
    | sleep sleeping =>
        rw [(runs_alive reached).backoff]
        exact ⟨waitAfter_bounds before, waitAfter_eq_two⟩

end Alive

theorem connection_kept_alive_sample :
    (∀ before middle after : List Event,
        [Event.connected, .pinged, .incoming (.message .pong), .pinged, .unanswered, .slept 1,
          .refused, .slept 2] = before ++ .pinged :: middle ++ .pinged :: after →
        .connected ∈ middle ∨ .incoming (.message .pong) ∈ middle) ∧
      pongDue [.connected, .pinged, .incoming (.message .pong), .pinged] = true := by
  have connected := Trace.nil.snoc (@Step.connect sampleDecoder .start rfl)
  have answered := (connected.snoc (.ping rfl)).snoc (.receive rfl (.message .pong))
  have gaveUp := (answered.snoc (.ping rfl)).snoc (.giveUp rfl)
  have refused := (gaveUp.snoc (.sleep rfl)).snoc (.refuse rfl)
  have run := refused.snoc (.sleep rfl)
  obtain ⟨answers, unanswered, -⟩ := connection_kept_alive run
  exact ⟨answers, unanswered [.connected, .pinged, .incoming (.message .pong), .pinged]
    [.slept 1, .refused, .slept 2] rfl⟩

end EthgasReth.Subscription
