import DartProtocol.ClientState
import DartProtocol.CodecControl
import DartProtocol.Dictionary

/-!
# The client: sending, receiving and repairing a stream

The data path of `src/client.ts`: `sendData`, the in-order decryption, storing and draining of
received darts, the gap test of an incoming Data dart, and the control frames that repair a stream.
The `while` loop of `processBufferedPackets` removes one buffered packet per turn, so it is run with
as many turns as the buffer has entries.
-/

namespace DartProtocol

variable (C : Crypto) (me : Identity)

/-! ### Histories -/

/-- The darts this client holds of a sender: its own sent ones, or the received ones. -/
def historyOf (s : Client) (senderId : ℕ) : List DataDart :=
  if senderId = me.senderId then s.sentMessages.values
  else
    match s.receivedMessages.get senderId with
    | none => []
    | some msgs => msgs.values

def getDictionary (s : Client) (senderId maxSeq : ℕ) : Buffer :=
  dictionaryOf maxSeq (historyOf me s senderId)

/-- Is `k` within the dictionary window, with slack, of the newest number? -/
def recent (newest k : ℕ) : Bool := decide (seqDelta k newest ≤ DICT_WINDOW + 16)

/-- Drop sent darts, and their message keys, that fell out of the window. -/
def pruneSent (s : Client) : Client :=
  { s with
    sentMessages := s.sentMessages.retain fun k _ => recent s.highestSentSeq k
    messageKeys := s.messageKeys.retain fun k _ =>
      !s.sentMessages.has k || recent s.highestSentSeq k }

/-- Drop received darts of a sender that fell out of the window. -/
def pruneReceived (senderId : ℕ) (s : Client) : Client :=
  let highest := orDefault (s.highestReceivedSeq.get senderId) 0
  match s.receivedMessages.get senderId with
  | none => s
  | some msgs =>
    { s with
      receivedMessages := s.receivedMessages.set senderId (msgs.retain fun k _ => recent highest k) }

/-- Empty the received history of a sender, when there is one. -/
def clearReceived (senderId : ℕ) (s : Client) : Client :=
  if s.receivedMessages.has senderId then
    { s with receivedMessages := s.receivedMessages.set senderId ∅ }
  else s

/-! ### Control frames -/

/-- A control frame: encrypted under the group key, signed with a pairwise key.  Without either
key nothing is sent. -/
def sendControl (convId : ℕ) (peer : Client → Option Buffer)
    (encode : Buffer → Buffer → Option Buffer) : ClientProg Unit := do
  let s ← Prog.get
  match s.getCurrentKey convId, peer s with
  | some convKey, some peerPub =>
    let nonce ← randomBytes me 12
    let buf ← Prog.ofOption (encode convKey nonce)
    let macKey ← Prog.ofOption (pairwiseKey C me.privateKey peerPub)
    broadcast (signControlFrame C buf macKey)
  | _, _ => pure ()

def sendDictReset (convId targetId : ℕ) : ClientProg Unit :=
  sendControl C me convId (fun s => s.serverPubKeys.get convId)
    (Codec.encodeDictReset C { type := TYPE_DICT_RESET, convId, senderId := me.senderId, targetId })

def sendAck (convId targetId seq : ℕ) : ClientProg Unit :=
  sendControl C me convId (fun s => get₂ s.roster convId targetId)
    (Codec.encodeAck C { type := TYPE_ACK, convId, senderId := me.senderId, targetId, seq })

def sendNack (convId targetId : ℕ) (missingSeq : List ℕ) : ClientProg Unit :=
  sendControl C me convId (fun s => get₂ s.roster convId targetId)
    (Codec.encodeNack C { type := TYPE_NACK, convId, senderId := me.senderId, targetId, missingSeq })

/-- Nothing is announced before the first send. -/
def sendSync (convId : ℕ) : ClientProg Unit := do
  let s ← Prog.get
  if s.highestSentSeq = 0 then pure ()
  else
    sendControl C me convId (fun s => s.serverPubKeys.get convId)
      (Codec.encodeSync C
        { type := TYPE_SYNC, convId, senderId := me.senderId, highestSeq := s.highestSentSeq })

/-! ### Sending -/

/-- (Re)start the probe timer.  There is one for the whole client. -/
def scheduleProbe (convId : ℕ) : ClientProg Unit :=
  Prog.modify fun s => { s with probeTimer := some convId }

/-- Encode a Data dart with a fresh nonce and send it. -/
def transmitData (dart : DataDart) (dict messageKey : Buffer) (idx epoch : ℕ) :
    ClientProg Unit := do
  let nonce ← randomBytes me 12
  let buf ← Prog.ofOption (Codec.encodeDataHelper C dart dict messageKey idx epoch nonce)
  Prog.emit (.encoded { dart, dict, messageKey, idx, epoch, nonce, buf })
  broadcast buf

/-- Enter a new dart and its message key, and forget what fell out of the window. -/
def recordSent (dart : DataDart) (mk : MessageKey) (s : Client) : Client :=
  let s := pruneSent
    { s with
      highestSentSeq := dart.seq
      sentMessages := s.sentMessages.set dart.seq dart
      messageKeys := s.messageKeys.set dart.seq mk }
  { s with messageStatus := s.messageStatus.set dart.seq .sent }

/-- Use up the next number and a step of the own chain for a new dart, and enter the dart. -/
def enterSent (convId : ℕ) (payload : String) (chain : ChainState) (s : Client) : Client :=
  let epoch := s.sendingEpoch convId
  let advanced := advanceChain C chain chain.index
  recordSent { type := TYPE_DATA, convId, senderId := me.senderId, seq := s.nextSeq, payload }
    { key := advanced.1, idx := chain.index, epoch }
    ({ s with nextSeq := seqNext s.nextSeq }.setChain convId epoch me.senderId advanced.2)

/-- The sequence number is used up also when there is no chain to send on yet. -/
def sendData (convId : ℕ) (payload : String) : ClientProg Unit := do
  let s ← Prog.get
  let seq := s.nextSeq
  let dict := getDictionary me s me.senderId seq
  let epoch := s.sendingEpoch convId
  match s.getChain convId epoch me.senderId with
  | none => Prog.modify fun s => { s with nextSeq := seqNext s.nextSeq }
  | some myChain =>
    let idx := myChain.index
    let dart : DataDart := { type := TYPE_DATA, convId, senderId := me.senderId, seq, payload }
    Prog.modify (enterSent C me convId payload myChain)
    Prog.emit (.sent dart)
    transmitData C me dart dict (advanceChain C myChain idx).1 idx epoch
    scheduleProbe convId
    Prog.modify fun s => { s with optimisticTimers := insert seq s.optimisticTimers }

/-! ### Receiving in order -/

/-- Decrypt with the sender's chain.  The outer `none` is an exception, the inner one a packet that
is ignored; the advanced chain comes with a successful decryption only. -/
def openData (s : Client) (buf : Buffer) (senderId : ℕ) :
    Option (Option (DecryptedData × Client)) := do
  let epoch ← buf.readUInt16BE 21
  let idx ← buf.readUInt32BE 27
  let convId ← buf.readUInt16BE 1
  match s.getChain convId epoch senderId with
  | none => some none
  | some chain =>
    if idx < chain.index then some none
    else
      let advanced := advanceChain C chain idx
      match Codec.decryptData C buf advanced.1 with
      | none => some none
      | some dec => some (some (dec, s.setChain convId epoch senderId advanced.2))

def decryptDataInOrder (buf : Buffer) (senderId : ℕ) : ClientProg (Option DecryptedData) := do
  let s ← Prog.get
  let opened ← Prog.ofOption (openData C s buf senderId)
  match opened with
  | none => pure none
  | some (dec, s') =>
    Prog.modify fun _ => s'
    pure (some dec)

/-- Enter a received dart, move the highest received number, prune, and (re)start the ACK timer. -/
def storeReceived (dart : DataDart) (s : Client) : Client :=
  let h := orDefault (s.highestReceivedSeq.get dart.senderId) 0
  let d := if s.highestReceivedSeq.has dart.senderId then seqDelta h dart.seq else 1
  pruneReceived dart.senderId
    { s with
      receivedMessages := set₂ s.receivedMessages dart.senderId dart.seq dart
      highestReceivedSeq :=
        if 0 < d ∧ d < SEQ_MOD / 2 then s.highestReceivedSeq.set dart.senderId dart.seq
        else s.highestReceivedSeq
      ackTimers := s.ackTimers.set dart.senderId (dart.convId, dart.seq) }

def processDataPacket (dec : DecryptedData) (parsedSenderId seq : ℕ) : ClientProg Unit := do
  let s ← Prog.get
  let dict := getDictionary me s parsedSenderId seq
  Prog.emit (.checked dict)
  if dec.dictFp ≠ dictFingerprint C dict then
    -- lost history: forget it and ask the sender to do the same
    Prog.modify (clearReceived parsedSenderId)
    sendDictReset C me dec.convId parsedSenderId
  else
    match Codec.inflateData C dec.compressed dict with
    | none => pure ()
    | some payload =>
      let dart : DataDart :=
        { type := TYPE_DATA, convId := dec.convId, senderId := parsedSenderId, seq, payload }
      if (get₂ s.receivedMessages parsedSenderId seq).isSome then pure ()
      else
        Prog.modify (storeReceived dart)
        Prog.emit (.stored dart)

/-- Take a packet out of the out-of-order buffer. -/
def unbuffer (senderId seq : ℕ) (s : Client) : Client :=
  match s.outOfOrderBuffer.get senderId with
  | none => s
  | some bufferMap =>
    { s with outOfOrderBuffer := s.outOfOrderBuffer.set senderId (bufferMap.delete seq) }

/-- The body of the draining loop for one buffered packet. -/
def processBuffered (raw : Buffer) (senderId nextSeq : ℕ) : ClientProg Unit := do
  let dec ← decryptDataInOrder C raw senderId
  match dec with
  | none => pure ()
  | some dec =>
    if dec.senderId = senderId then processDataPacket C me dec senderId nextSeq
    else pure ()

/-- Process buffered packets from `nextSeq` on while they are consecutive. -/
def drainBuffer (senderId : ℕ) : ℕ → ℕ → ClientProg Unit
  | 0, _ => pure ()
  | turns + 1, nextSeq => do
    let s ← Prog.get
    match get₂ s.outOfOrderBuffer senderId nextSeq with
    | none => pure ()
    | some raw =>
      Prog.modify (unbuffer senderId nextSeq)
      let _ ← Prog.attempt (processBuffered C me raw senderId nextSeq)
      drainBuffer senderId turns (seqNext nextSeq)

def processBufferedPackets (senderId : ℕ) : ClientProg Unit := do
  let s ← Prog.get
  match s.outOfOrderBuffer.get senderId with
  | none => pure ()
  | some bufferMap =>
    drainBuffer C me senderId bufferMap.size
      (seqNext (orDefault (s.highestReceivedSeq.get senderId) 0))

/-! ### The gap test -/

/-- Start a NACK retry for a sender unless one is pending. -/
def scheduleNackRetry (convId senderId : ℕ) : ClientProg Unit :=
  Prog.modify fun s =>
    if s.nackRetryTimers.has senderId then s
    else { s with nackRetryTimers := s.nackRetryTimers.set senderId convId }

/-- The numbers `highest + 1, …, highest + count` on the circle. -/
def seqsAfter (highest count : ℕ) : List ℕ :=
  (List.range count).map fun k => (highest + (k + 1)) % SEQ_MOD

/-- Neither buffered nor stored. -/
def isMissing (s : Client) (senderId seq : ℕ) : Bool :=
  (get₂ s.outOfOrderBuffer senderId seq).isNone && (get₂ s.receivedMessages senderId seq).isNone

/-- How far a Data dart is ahead of what was received.  Without a baseline the first packet is the
next one, unless its number lies in the recoverable window. -/
def dataAhead (s : Client) (senderId seq : ℕ) : ℕ :=
  if s.highestReceivedSeq.has senderId then
    seqDelta (orDefault (s.highestReceivedSeq.get senderId) 0) seq
  else if 1 ≤ seq ∧ seq ≤ DICT_WINDOW then seq
  else 1

/-- Ask for what is missing, and keep asking. -/
def nackMissing (convId senderId : ℕ) (missing : List ℕ) : ClientProg Unit :=
  if missing = [] then pure ()
  else do
    sendNack C me convId senderId missing
    scheduleNackRetry convId senderId

/-- Buffer a packet beyond a gap and ask for the gap. -/
def bufferAhead (buf : Buffer) (convId senderId seq ahead : ℕ) : ClientProg Unit := do
  Prog.modify fun s =>
    { s with outOfOrderBuffer := set₂ s.outOfOrderBuffer senderId seq buf }
  let s ← Prog.get
  let highestReceived := orDefault (s.highestReceivedSeq.get senderId) 0
  nackMissing C me convId senderId
    ((seqsAfter highestReceived (ahead - 1)).filter (isMissing s senderId))

/-- The next packet in order: decrypt it, process it, then drain the buffer. -/
def acceptNext (buf : Buffer) (senderId seq : ℕ) : ClientProg Unit := do
  let dec ← decryptDataInOrder C buf senderId
  match dec with
  | none => pure ()
  | some dec =>
    processDataPacket C me dec senderId seq
    processBufferedPackets C me senderId

/-- The gap test: drop what was processed or is stale, buffer what is beyond a gap, accept the
next packet. -/
def routeData (buf : Buffer) (convId senderId seq : ℕ) : ClientProg Unit := do
  let s ← Prog.get
  let ahead := dataAhead s senderId seq
  if ahead = 0 ∨ SEQ_MOD / 2 ≤ ahead then pure ()
  else if 1 < ahead then bufferAhead C me buf convId senderId seq ahead
  else acceptNext C me buf senderId seq

def handleData (buf : Buffer) : ClientProg Unit := do
  let convId ← Prog.ofOption (buf.readUInt16BE 1)
  let seq ← Prog.ofOption (buf.readUIntBE 3 3)
  let extLen ← Prog.ofOption (buf.readUInt8 6)
  if extLen < 24 then pure ()
  else
    let senderId ← Prog.ofOption (buf.readUInt16BE 7)
    Prog.modify fun s => s.noteSeen senderId seq
    routeData C me buf convId senderId seq

/-! ### Evaluation -/

/-- Conversation, sender and number in the header of a Data frame.  The outer `none` is an exception,
the inner one a frame that is ignored. -/
def dataHeader (buf : Buffer) : Option (Option (ℕ × ℕ × ℕ)) := do
  let convId ← buf.readUInt16BE 1
  let seq ← buf.readUIntBE 3 3
  let extLen ← buf.readUInt8 6
  if extLen < 24 then some none
  else
    let senderId ← buf.readUInt16BE 7
    some (some (convId, senderId, seq))

/-- A Data frame notes the number in its header and goes to the gap test. -/
theorem handleData_run (buf : Buffer) (s : Client) :
    handleData C me buf s
      = match dataHeader buf with
        | none => ⟨none, s, []⟩
        | some none => ⟨some (), s, []⟩
        | some (some (convId, senderId, seq)) =>
          routeData C me buf convId senderId seq (s.noteSeen senderId seq) := by
  unfold handleData dataHeader
  cases buf.readUInt16BE 1 with
  | none => rfl
  | some convId =>
    cases buf.readUIntBE 3 3 with
    | none => rfl
    | some seq =>
      cases buf.readUInt8 6 with
      | none => rfl
      | some extLen =>
        by_cases hext : extLen < 24
        · simp only [Prog.ofOption_some_bind, if_pos hext, Option.bind_eq_bind,
            Option.bind_some]
          rfl
        · simp only [Prog.ofOption_some_bind, if_neg hext, Option.bind_eq_bind,
            Option.bind_some]
          cases buf.readUInt16BE 7 <;> rfl

/-- The conversation and the number are those of the header, and fit its fields. -/
theorem dataHeader_bounds {buf : Buffer} {convId senderId seq : ℕ}
    (h : dataHeader buf = some (some (convId, senderId, seq))) :
    convId < 65536 ∧ buf.readUIntBE 3 3 = some seq ∧ seq < SEQ_MOD := by
  simp only [dataHeader, Option.bind_eq_bind, Option.bind_eq_some_iff] at h
  obtain ⟨c, hc, q, hq, extLen, -, h⟩ := h
  split at h
  · cases h
  · obtain ⟨id, -, h⟩ := Option.bind_eq_some_iff.mp h
    cases h
    exact ⟨Buffer.readUIntBE_lt hc, hq, Buffer.readUIntBE_lt hq⟩

theorem decryptDataInOrder_run (buf : Buffer) (senderId : ℕ) (s : Client) :
    decryptDataInOrder C buf senderId s
      = match openData C s buf senderId with
        | none => ⟨none, s, []⟩
        | some none => ⟨some none, s, []⟩
        | some (some (dec, s')) => ⟨some (some dec), s', []⟩ := by
  rw [decryptDataInOrder, Prog.get_bind]
  rcases openData C s buf senderId with _ | _ | ⟨dec, s'⟩ <;> rfl

theorem decryptDataInOrder_bind (buf : Buffer) (senderId : ℕ)
    (f : Option DecryptedData → ClientProg Unit) (s : Client) :
    (decryptDataInOrder C buf senderId >>= f) s
      = match openData C s buf senderId with
        | none => ⟨none, s, []⟩
        | some none => f none s
        | some (some (dec, s')) => f (some dec) s' := by
  rw [Prog.bind_run, decryptDataInOrder_run]
  rcases openData C s buf senderId with _ | _ | ⟨dec, s'⟩ <;> rfl

/-- The draining loop stops at the first number that is not buffered. -/
theorem drainBuffer_of_none {s : Client} {senderId q : ℕ}
    (h : get₂ s.outOfOrderBuffer senderId q = none) (turns : ℕ) :
    drainBuffer C me senderId (turns + 1) q s = ⟨some (), s, []⟩ := by
  rw [drainBuffer, Prog.get_bind]
  simp only [h]
  rfl

theorem drainBuffer_of_some {s : Client} {senderId q : ℕ} {raw : Buffer}
    (h : get₂ s.outOfOrderBuffer senderId q = some raw) (turns : ℕ) :
    drainBuffer C me senderId (turns + 1) q s
      = (drainBuffer C me senderId turns (seqNext q)
          (processBuffered C me raw senderId q (unbuffer senderId q s)).state).prepend
          (processBuffered C me raw senderId q (unbuffer senderId q s)).output := by
  rw [drainBuffer, Prog.get_bind]
  simp only [h]
  rw [Prog.modify_bind, Prog.attempt_bind]

end DartProtocol
