import DartProtocol.ClientKeys
import DartProtocol.ClientStream

/-!
# The client as a state machine

`handleMessage` of `src/client.ts` with every frame type, the callbacks of all timers, and the public
calls, gathered in one `step` function.  A run is the event loop over a list of events: datagrams
with arbitrary bytes, timers in any order, and calls by the application.

`handleMessage` catches every exception, so a bad packet ends its own handler and keeps what the
handler had done so far.  A timer callback or a public call that throws is treated the same way; the
process may also stop there, which allows fewer runs.
-/

namespace DartProtocol

variable (C : Crypto) (me : Identity)

/-! ### Repairs: NACK, SYNC, Dict-Reset and ACK -/

/-- The payload of a control frame signed with the pairwise key of the named roster member, when it
is addressed to this client and verifies.  The outer `none` is an exception. -/
def openPairwise (s : Client) (buf : Buffer) : Option (Option (ℕ × ℕ × Buffer)) := do
  let convId ← buf.readUInt16BE 1
  let senderId ← buf.readUInt16BE 3
  let targetId ← buf.readUInt16BE 5
  if targetId ≠ me.senderId then some none
  else
    match get₂ s.roster convId senderId with
    | none => some none
    | some peerPub =>
      let key ← pairwiseKey C me.privateKey peerPub
      match verifyControlFrame C buf key with
      | none => some none
      | some stripped => some (some (convId, senderId, stripped))

/-- Re-encode one of the own darts under its original message key and send it again. -/
def retransmit (seq : ℕ) : ClientProg Unit := do
  let s ← Prog.get
  match s.sentMessages.get seq, s.messageKeys.get seq with
  | some dart, some mk =>
    let dict := getDictionary me s me.senderId seq
    transmitData C me dart dict mk.key mk.idx mk.epoch
    Prog.modify fun s =>
      { s with
        messageStatus := s.messageStatus.set seq .sent
        optimisticTimers := insert seq s.optimisticTimers }
  | _, _ => pure ()

/-- Give a member the start of the own chain of the current epoch again. -/
def reshareSeed (convId targetId : ℕ) : ClientProg Unit := do
  let s ← Prog.get
  let epoch := s.sendingEpoch convId
  match get₂ s.chainSeeds convId epoch with
  | none => pure ()
  | some seed => sendChainShare C me convId epoch targetId seed

def handleNack (buf : Buffer) : ClientProg Unit := do
  let s ← Prog.get
  let opened ← Prog.ofOption (openPairwise C me s buf)
  match opened with
  | none => pure ()
  | some (convId, senderId, stripped) =>
    match s.getCurrentKey convId with
    | none => pure ()
    | some convKey =>
      let nack ← Prog.ofOption (Codec.decodeNack C stripped convKey)
      Prog.forEach (retransmit C me) nack.missingSeq
      reshareSeed C me convId senderId

/-- The payload of a frame that the relay verified, with the group key of its conversation. -/
def openRelayed (s : Client) (buf : Buffer) : Option (Option (Buffer × Buffer)) :=
  match stripControlFrame buf with
  | none => some none
  | some stripped =>
    match stripped.readUInt16BE 1 with
    | none => none
    | some convId =>
      match s.getCurrentKey convId with
      | none => some none
      | some key => some (some (stripped, key))

/-- How far an announced number is ahead; a fresh receiver counts from zero. -/
def syncAhead (s : Client) (senderId highestSeq : ℕ) : ℕ :=
  if s.highestReceivedSeq.has senderId then
    seqDelta (orDefault (s.highestReceivedSeq.get senderId) 0) highestSeq
  else highestSeq

/-- Create an empty received history when there is none. -/
def ensureReceived (senderId : ℕ) (s : Client) : Client :=
  if s.receivedMessages.has senderId then s
  else { s with receivedMessages := s.receivedMessages.set senderId ∅ }

def handleSync (buf : Buffer) : ClientProg Unit := do
  let s ← Prog.get
  let opened ← Prog.ofOption (openRelayed s buf)
  match opened with
  | none => pure ()
  | some (stripped, syncKey) =>
    let sync ← Prog.ofOption (Codec.decodeSync C stripped syncKey)
    Prog.modify fun s => s.noteSeen sync.senderId sync.highestSeq
    let s ← Prog.get
    let highestReceived := orDefault (s.highestReceivedSeq.get sync.senderId) 0
    let ahead := syncAhead s sync.senderId sync.highestSeq
    if 0 < ahead ∧ ahead < SEQ_MOD / 2 then
      Prog.modify (ensureReceived sync.senderId)
      let s ← Prog.get
      nackMissing C me sync.convId sync.senderId
        ((seqsAfter highestReceived ahead).filter fun i =>
          (get₂ s.receivedMessages sync.senderId i).isNone)
    else pure ()

/-- The target of a reset flushes what it sent, everybody else what they received of the target. -/
def applyDictReset (targetId : ℕ) (s : Client) : Client :=
  if targetId = me.senderId then { s with sentMessages := ∅ } else clearReceived targetId s

def handleDictReset (buf : Buffer) : ClientProg Unit := do
  let s ← Prog.get
  let opened ← Prog.ofOption (openRelayed s buf)
  match opened with
  | none => pure ()
  | some (stripped, resetKey) =>
    let reset ← Prog.ofOption (Codec.decodeDictReset C stripped resetKey)
    Prog.modify (applyDictReset me reset.targetId)

def handleAck (buf : Buffer) : ClientProg Unit := do
  let s ← Prog.get
  let opened ← Prog.ofOption (openPairwise C me s buf)
  match opened with
  | none => pure ()
  | some (convId, _, stripped) =>
    match s.getCurrentKey convId with
    | none => pure ()
    | some ackKey =>
      let ack ← Prog.ofOption (Codec.decodeAck C stripped ackKey)
      if seqDelta s.highestSentSeq ack.seq < SEQ_MOD / 2 then
        Prog.modify fun s => { s with ackedSeq := s.ackedSeq.set convId ack.seq }
      else pure ()

/-! ### Dispatch -/

/-- The handler of each frame type. -/
def handlerOf (type : ℕ) (buf : Buffer) : ClientProg Unit :=
  if type = TYPE_DATA then handleData C me buf
  else if type = TYPE_CHAIN_SHARE then handleChainShare C me buf
  else if type = TYPE_NACK then handleNack C me buf
  else if type = TYPE_KEY_SHARE then handleKeyShare C me buf
  else if type = TYPE_MEMBER_INFO then handleMemberInfo C me buf
  else if type = TYPE_SYNC then handleSync C me buf
  else if type = TYPE_DICT_RESET then handleDictReset C me buf
  else if type = TYPE_ACK then handleAck C me buf
  else pure ()

/-- Handle a frame, before exceptions are caught. -/
def dispatch (buf : Buffer) : ClientProg Unit := do
  let type ← Prog.ofOption (buf.readUInt8 0)
  handlerOf C me type buf

/-- `handleMessage`: a bad packet is dropped. -/
def handleMessage (buf : Buffer) : ClientProg Unit := do
  let _ ← Prog.attempt (dispatch C me buf)
  pure ()

/-- An exception ends the handler and keeps what it did. -/
theorem handleMessage_run (buf : Buffer) (s : Client) :
    handleMessage C me buf s = ⟨some (), (dispatch C me buf s).state, (dispatch C me buf s).output⟩ := by
  rw [handleMessage, Prog.attempt_bind]
  simp [Outcome.prepend]

/-- A frame goes to the handler of its type. -/
theorem dispatch_of_type {buf : Buffer} {type : ℕ} (h : buf.readUInt8 0 = some type) (s : Client) :
    dispatch C me buf s = handlerOf C me type buf s := by
  rw [dispatch, h, Prog.ofOption_some_bind]

/-! ### Timer callbacks -/

/-- The probe: announce the newest number, and re-arm while it is not acknowledged. -/
def runProbe (convId : ℕ) : ClientProg Unit := do
  sendSync C me convId
  let s ← Prog.get
  let acked := orDefault (s.ackedSeq.get convId) 0
  if SEQ_MOD / 2 ≤ seqDelta s.highestSentSeq acked then scheduleProbe convId else pure ()

/-- Re-NACK the part of the outstanding gap that the window can repair. -/
def runNackRetry (convId senderId : ℕ) : ClientProg Unit := do
  let s ← Prog.get
  match s.highestReceivedSeq.get senderId, s.seenSeq.get senderId with
  | some _, some seen =>
    let highest := orDefault (s.highestReceivedSeq.get senderId) 0
    let ahead := seqDelta highest seen
    nackMissing C me convId senderId
      ((seqsAfter highest (min (ahead - 1) DICT_WINDOW)).filter (isMissing s senderId))
  | _, _ => pure ()

/-- `close` stops the probe, rekey, optimistic and ACK timers; the others may still fire. -/
def closeClient (s : Client) : Client :=
  { s with closed := true, probeTimer := none, rekeyTimer := none, optimisticTimers := ∅,
           ackTimers := ∅ }

/-! ### Events and runs -/

inductive Event
  /-- The application sends. -/
  | sendData (convId : ℕ) (payload : String)
  | joinConversation (convId : ℕ)
  /-- A datagram, or a frame of the TCP fallback. -/
  | message (buf : Buffer)
  /-- The pending share retry, or KeyReq retry, at this position fires. -/
  | shareTimer (i : ℕ)
  | joinTimer (i : ℕ)
  | rekeyTimer
  | probeTimer
  | nackRetryTimer (senderId : ℕ)
  | ackTimer (senderId : ℕ)
  | optimisticTimer (seq : ℕ)
  | addPeer (peer : PeerAddress)
  | setServerFingerprint (fp : String)
  | enableFallback
  | disableFallback
  | close
  deriving DecidableEq

/-- The bytes an event delivers. -/
def Event.datagram : Event → Option Buffer
  | .message buf => some buf
  | _ => none

/-- `trim().toLowerCase()` on the ASCII text of a fingerprint. -/
def trimToLower (fp : String) : String :=
  let kept := (fp.toList.dropWhile Char.isWhitespace).reverse.dropWhile Char.isWhitespace
  String.ofList (kept.reverse.map Char.toLower)

/-- Run the callback of a timer when it is pending. -/
def fire {α : Type} (pending : Client → Option α) (clear : Client → Client)
    (callback : α → ClientProg Unit) : ClientProg Unit := do
  let s ← Prog.get
  match pending s with
  | none => pure ()
  | some a =>
    Prog.modify clear
    callback a

/-- One event.  A closed socket delivers no datagrams. -/
def step : Event → ClientProg Unit
  | .sendData convId payload => DartProtocol.sendData C me convId payload
  | .joinConversation convId => DartProtocol.joinConversation C me convId
  | .message buf => do
    let s ← Prog.get
    if s.closed then pure () else handleMessage C me buf
  | .shareTimer i =>
    fire (fun s => s.shareTimers[i]?) (fun s => { s with shareTimers := s.shareTimers.eraseIdx i })
      (runShareRetry C me)
  | .joinTimer i =>
    fire (fun s => s.joinTimers[i]?) (fun s => { s with joinTimers := s.joinTimers.eraseIdx i })
      (sendKeyReq C me)
  | .rekeyTimer =>
    fire (fun s => s.rekeyTimer) (fun s => { s with rekeyTimer := none }) (rekey C me)
  | .probeTimer =>
    fire (fun s => s.probeTimer) (fun s => { s with probeTimer := none }) (runProbe C me)
  | .nackRetryTimer senderId =>
    fire (fun s => s.nackRetryTimers.get senderId)
      (fun s => { s with nackRetryTimers := s.nackRetryTimers.delete senderId })
      (fun convId => runNackRetry C me convId senderId)
  | .ackTimer senderId =>
    fire (fun s => s.ackTimers.get senderId)
      (fun s => { s with ackTimers := s.ackTimers.delete senderId })
      (fun p => sendAck C me p.1 senderId p.2)
  | .optimisticTimer seq =>
    fire (fun s => if seq ∈ s.optimisticTimers then some () else none)
      (fun s => { s with optimisticTimers := s.optimisticTimers.erase seq })
      (fun _ => Prog.modify fun s =>
        { s with messageStatus := s.messageStatus.set seq .assumedDelivered })
  | .addPeer peer => Prog.modify fun s => { s with peers := s.peers ++ [peer] }
  | .setServerFingerprint fp => Prog.modify fun s => { s with serverFingerprint := trimToLower fp }
  | .enableFallback =>
    Prog.modify fun s => if s.useFallback then s else { s with useFallback := true, tcpSocket := true }
  | .disableFallback => Prog.modify fun s => { s with useFallback := false, tcpSocket := false }
  | .close => Prog.modify closeClient

theorem fire_run {α : Type} (pending : Client → Option α) (clear : Client → Client)
    (callback : α → ClientProg Unit) (s : Client) :
    fire pending clear callback s
      = match pending s with
        | none => ⟨some (), s, []⟩
        | some a => callback a (clear s) := by
  show (match pending s with
    | none => pure ()
    | some a => (do Prog.modify clear; callback a : ClientProg Unit)) s = _
  cases pending s <;> rfl

theorem step_rekeyTimer (s : Client) :
    step C me .rekeyTimer s
      = match s.rekeyTimer with
        | none => ⟨some (), s, []⟩
        | some convId => rekey C me convId { s with rekeyTimer := none } := by
  show fire (fun s => s.rekeyTimer) _ (rekey C me) s = _
  rw [fire_run]
  cases s.rekeyTimer <;> rfl

/-- A datagram reaches an open client only. -/
theorem step_message (buf : Buffer) (s : Client) :
    step C me (.message buf) s
      = if s.closed then ⟨some (), s, []⟩ else handleMessage C me buf s := by
  show (if s.closed then pure () else handleMessage C me buf : ClientProg Unit) s = _
  split <;> rfl

/-- A frame of an open client goes to the handler of its type; an exception ends there. -/
theorem step_message_of_type {s : Client} (hopen : s.closed = false) {buf : Buffer} {type : ℕ}
    (htype : buf.readUInt8 0 = some type) :
    step C me (.message buf) s = ⟨some (), (handlerOf C me type buf s).state,
      (handlerOf C me type buf s).output⟩ := by
  rw [step_message, if_neg (by rw [hopen]; decide), handleMessage_run, dispatch_of_type C me htype]

/-- A pending retry runs after it was taken out of the list. -/
theorem step_shareTimer (i : ℕ) (s : Client) :
    step C me (.shareTimer i) s
      = match s.shareTimers[i]? with
        | none => ⟨some (), s, []⟩
        | some retry =>
          runShareRetry C me retry { s with shareTimers := s.shareTimers.eraseIdx i } := by
  show fire (fun s => s.shareTimers[i]?) _ (runShareRetry C me) s = _
  rw [fire_run]
  cases s.shareTimers[i]? <;> rfl

/-- A run of the client from some state. -/
def run (es : List Event) : ClientProg Unit := Prog.eventLoop (step C me) es

/-- The state a fresh client reaches by a list of events. -/
def stateAfter (es : List Event) : Client := (run C me es {}).state

/-- What a fresh client puts out over a list of events. -/
def outputsOf (es : List Event) : List Output := (run C me es {}).output

/-- The frames among outputs. -/
def framesOf (os : List Output) : List Buffer :=
  os.filterMap fun o => match o with
    | .broadcast buf _ => some buf
    | _ => none

theorem run_append (es es' : List Event) (s : Client) :
    run C me (es ++ es') s
      = (run C me es' (run C me es s).state).prepend (run C me es s).output :=
  Prog.eventLoop_append _ _ _ _

theorem run_cons (e : Event) (es : List Event) (s : Client) :
    run C me (e :: es) s
      = (run C me es (step C me e s).state).prepend (step C me e s).output := rfl

theorem stateAfter_append (es es' : List Event) :
    stateAfter C me (es ++ es') = (run C me es' (stateAfter C me es)).state := by
  rw [stateAfter, run_append]
  rfl

theorem outputsOf_append (es es' : List Event) :
    outputsOf C me (es ++ es')
      = outputsOf C me es ++ (run C me es' (stateAfter C me es)).output := by
  rw [outputsOf, run_append]
  rfl

/-- One more event at the end of a run. -/
theorem stateAfter_concat (es : List Event) (e : Event) :
    stateAfter C me (es ++ [e]) = (step C me e (stateAfter C me es)).state := by
  rw [stateAfter_append]
  rfl

theorem outputsOf_concat (es : List Event) (e : Event) :
    outputsOf C me (es ++ [e]) = outputsOf C me es ++ (step C me e (stateAfter C me es)).output := by
  rw [outputsOf_append, run_cons]
  show _ ++ ((step C me e (stateAfter C me es)).output ++ []) = _
  rw [List.append_nil]

end DartProtocol
