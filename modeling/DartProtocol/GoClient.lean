import DartProtocol.ClientKeys
import DartProtocol.ClientStream
import DartProtocol.GoCodec

/-!
# The Go client

`NativeDartClient` of `go/main.go`.  Goroutines share its state behind one mutex: a frame, a timer
callback and a call of the application each hold it from start to end, so each is one step here.  The
exception is `adoptKey`, which gives the lock up when the first key of a conversation arrives, to
announce itself and to send what was queued.  A goroutine at such a point is an entry of `waiting`,
with what it does next and where `adoptKey` returns to; `resume` lets it run up to the next point.

* An exception is a panic; `handleMessage` recovers from it and keeps what was done.
* Numbers have the width of their Go type: an epoch has 16 bits, a chain index 32.
* `range` over a map goes in insertion order, and the clock is in nanoseconds.
* Texts that are printed are left out.
-/

namespace DartProtocol.GoClient

open Slice GoCodec

/-! ### State -/

/-- A received dart.  Its text may be any bytes. -/
structure Dart where
  type : ℕ
  convId : ℕ
  senderId : ℕ
  seq : ℕ
  payload : Buffer
  deriving DecidableEq

/-- Where `adoptKey` returns to. -/
inductive Caller
  /-- A group-key share that was taken over. -/
  | keyShare
  /-- A roster that made its creator found the group. -/
  | memberInfo
  /-- The rotation timer. -/
  | rekey
  /-- A roster that made the client the new creator. -/
  | election
  deriving DecidableEq

/-- A goroutine that has given up the lock inside `adoptKey`. -/
inductive Waiting
  /-- It announces itself next. -/
  | announce (convId : ℕ) (caller : Caller)
  /-- It takes the lock next and looks at the queue. -/
  | drain (convId : ℕ) (caller : Caller)
  /-- It sends the rest of the queue it found, then takes the lock and goes on. -/
  | flush (convId : ℕ) (queue : List String) (caller : Caller)
  deriving DecidableEq

structure NativeDartClient where
  codec : GoCodec.Codec := {}
  /-- `codec.RoomKeys`, which the codec itself never reads. -/
  roomKeys : NumMap (NumMap Buffer) := ∅
  serverFingerprint : String := ""
  serverPubKeys : NumMap Buffer := ∅
  senderChains : NumMap (NumMap (NumMap ChainState)) := ∅
  chainSharedWith : NumMap (Finset ℕ) := ∅
  messageKeys : NumMap MessageKey := ∅
  chainSeeds : NumMap (NumMap ChainState) := ∅
  /-- Is there a TCP fallback connection? -/
  tcpConn : Bool := false
  useFallback : Bool := false
  roster : NumMap (NumMap Buffer) := ∅
  sharedWith : NumMap (Finset ℕ) := ∅
  isCreator : NumMap Bool := ∅
  /-- The conversation whose rotation is pending. -/
  rekeyTimer : Option ℕ := none
  nextSeq : ℕ := 1
  highestSentSeq : ℕ := 0
  highestReceived : NumMap ℕ := ∅
  sentMessages : NumMap DataDart := ∅
  receivedMessages : NumMap (NumMap Dart) := ∅
  /-- The conversations of the pending probes. -/
  syncTimers : List ℕ := []
  ackedSeq : NumMap ℕ := ∅
  /-- Sender to the conversation and number of its pending ACK. -/
  ackTimers : NumMap (ℕ × ℕ) := ∅
  outOfOrderBuffer : NumMap (NumMap Buffer) := ∅
  nackTimestamps : NumMap (NumMap ℕ) := ∅
  pendingQueue : List String := []
  lastSendTime : Option ℕ := none
  shareTimers : List ShareRetry := []
  /-- The rooms of the pending KeyReq retries. -/
  joinTimers : List ℕ := []
  waiting : List Waiting := []
  clock : ℕ := 0
  /-- How often the random source was used. -/
  draws : ℕ := 0

/-- What the connections were asked to carry. -/
inductive Output
  | udp (buf : Buffer)
  | tcp (out : Buffer)
  deriving DecidableEq

/-- What a goroutine does while it holds the lock. -/
abbrev Locked := Prog NativeDartClient Output

/-- The compressor and the decompressor of `compress/flate`, given data and dictionary. -/
structure Flate where
  deflate : Buffer → Buffer → Buffer
  inflate : Buffer → Buffer → Option Buffer

variable (C : Crypto) (A : ShortAes) (F : Flate) (me : Identity)

/-! ### Small operations -/

def randomBytes (n : ℕ) : Locked Buffer := do
  let s ← Prog.get
  Prog.modify fun s => { s with draws := s.draws + 1 }
  pure (me.random s.draws n)

/-- The length of a frame is cut to the two bytes of its field. -/
def send (buf : Buffer) : Locked Unit := do
  let s ← Prog.get
  if s.useFallback && s.tcpConn then
    let out ← Prog.ofOption (putUint16 (Buffer.alloc (2 + buf.length)) 0 2 buf.length)
    let out ← Prog.ofOption (copyInto out 2 out.length buf)
    Prog.emit (.tcp out)
  else Prog.emit (.udp buf)

/-- Send what could be encoded. -/
def sendOk : Option Buffer → Locked Unit
  | none => pure ()
  | some buf => send buf

namespace NativeDartClient

def getChain (s : NativeDartClient) (convId epoch senderId : ℕ) : Option ChainState :=
  (get₂ s.senderChains convId epoch).bind (·.get senderId)

def setChain (s : NativeDartClient) (convId epoch senderId : ℕ) (state : ChainState) :
    NativeDartClient :=
  { s with
    senderChains := set₂ s.senderChains convId epoch
      (((get₂ s.senderChains convId epoch).getD ∅).set senderId state) }

/-- `CurrentEpochs[convId]`, which is zero without an entry. -/
def currentEpoch (s : NativeDartClient) (convId : ℕ) : ℕ := (s.codec.currentEpochs.get convId).getD 0

/-- The epoch to send under: `1` stands in for zero. -/
def sendingEpoch (s : NativeDartClient) (convId : ℕ) : ℕ :=
  if s.currentEpoch convId = 0 then 1 else s.currentEpoch convId

end NativeDartClient

/-- The loop over a 32-bit index, and the message key at its end. -/
def advanceChain (state : ChainState) (targetIndex : ℕ) : Buffer × ChainState :=
  let steps := targetIndex - state.index
  let key := chainSteps C steps state.key
  let index := state.index + steps
  (chainMessageKey C key index, ⟨chainNextKey C key, (index + 1) % 2 ^ 32⟩)

/-- Join the payloads of the window, oldest first.  Darts are chosen by their key and ordered by their
own number. -/
def joinWindow (maxSeq : ℕ) (darts : List (ℕ × ℕ × Buffer)) : Buffer :=
  Buffer.concat (((darts.filter fun e =>
      decide (1 ≤ seqDelta e.1 maxSeq ∧ seqDelta e.1 maxSeq ≤ DICT_WINDOW)).insertionSort
    fun a b => seqDelta b.2.1 maxSeq ≤ seqDelta a.2.1 maxSeq).map fun e => e.2.2)

def getDictionary (s : NativeDartClient) (senderId maxSeq : ℕ) : Buffer :=
  if senderId = me.senderId then
    joinWindow maxSeq (s.sentMessages.entries.map fun e => (e.1, e.2.seq, utf8 e.2.payload))
  else
    match s.receivedMessages.get senderId with
    | none => joinWindow maxSeq []
    | some msgs => joinWindow maxSeq (msgs.entries.map fun e => (e.1, e.2.seq, e.2.payload))

/-- Does a number lie outside the window (and its slack) of the newest one? -/
def outside (highest seq : ℕ) : Bool := decide (DICT_WINDOW + 16 < seqDelta seq highest)

def pruneSent (s : NativeDartClient) : NativeDartClient :=
  { s with
    sentMessages := s.sentMessages.retain fun seq _ => !outside s.highestSentSeq seq
    messageKeys := s.messageKeys.retain fun seq _ =>
      !(s.sentMessages.has seq && outside s.highestSentSeq seq) }

def pruneReceived (senderId : ℕ) (s : NativeDartClient) : NativeDartClient :=
  let highest := (s.highestReceived.get senderId).getD 0
  { s with
    receivedMessages := match s.receivedMessages.get senderId with
      | none => s.receivedMessages
      | some msgs => s.receivedMessages.set senderId (msgs.retain fun seq _ => !outside highest seq)
    nackTimestamps := match s.nackTimestamps.get senderId with
      | none => s.nackTimestamps
      | some ts => s.nackTimestamps.set senderId (ts.retain fun seq _ => !outside highest seq) }

/-! ### Control frames -/

/-- Sign a frame with the pairwise key of a public key and send it.  A frame that could not be encoded
is empty. -/
def sendSigned (peerPub : Option Buffer) (encode : Buffer → Option (Option Buffer)) : Locked Unit := do
  let nonce ← randomBytes me 12
  let buf ← Prog.ofOption (encode nonce)
  match peerPub with
  | none => pure ()
  | some pub =>
    match pairwiseKey C me.privateKey pub with
    | none => pure ()
    | some key => send (signControlFrame C (buf.getD []) key)

def sendSync (convId : ℕ) : Locked Unit := do
  let s ← Prog.get
  if s.highestSentSeq = 0 then pure ()
  else
    let sync : SyncDart :=
      { type := TYPE_SYNC, convId, senderId := me.senderId, highestSeq := s.highestSentSeq }
    sendSigned C me (s.serverPubKeys.get convId) (encodeSync C A s.codec sync)

def sendNack (convId targetId : ℕ) (missing : List ℕ) : Locked Unit := do
  let s ← Prog.get
  let nack : NackDart :=
    { type := TYPE_NACK, convId, senderId := me.senderId, targetId, missingSeq := missing }
  sendSigned C me (get₂ s.roster convId targetId) (encodeNack C A s.codec nack)

def sendAck (convId targetId seq : ℕ) : Locked Unit := do
  let s ← Prog.get
  let ack : AckDart := { type := TYPE_ACK, convId, senderId := me.senderId, targetId, seq }
  sendSigned C me (get₂ s.roster convId targetId) (encodeAck C A s.codec ack)

def sendDictReset (convId targetId : ℕ) : Locked Unit := do
  let s ← Prog.get
  let reset : DictResetDart :=
    { type := TYPE_DICT_RESET, convId, senderId := me.senderId, targetId }
  sendSigned C me (s.serverPubKeys.get convId) (encodeDictReset C A s.codec reset)

/-! ### Sending -/

/-- Stop the pending probes and start one. -/
def probeAgain (convId : ℕ) (s : NativeDartClient) : NativeDartClient :=
  { s with syncTimers := [convId] }

/-- Enter a new dart, its key and the state of its chain. -/
def enterSent (roomId epoch : ℕ) (payload : String) (myChain : ChainState) (s : NativeDartClient) :
    NativeDartClient :=
  let (messageKey, state) := advanceChain C myChain myChain.index
  pruneSent
    { s.setChain roomId epoch me.senderId state with
      nextSeq := seqNext s.nextSeq
      sentMessages := s.sentMessages.set s.nextSeq
        { type := TYPE_DATA, convId := roomId, senderId := me.senderId, seq := s.nextSeq, payload }
      messageKeys := s.messageKeys.set s.nextSeq ⟨messageKey, myChain.index, epoch⟩
      highestSentSeq := s.nextSeq }

/-- Two sends within 250 ms: the second is dropped.  Without a key or a chain a text is queued. -/
def sendData (roomId : ℕ) (payload : String) : Locked Unit := do
  let s ← Prog.get
  if s.lastSendTime.any fun t => decide (s.clock - t < 250000000) then pure ()
  else
    Prog.modify fun s => { s with lastSendTime := some s.clock }
    match s.codec.convKeys.get roomId, s.getChain roomId (s.sendingEpoch roomId) me.senderId with
    | some _, some myChain =>
      let epoch := s.sendingEpoch roomId
      let dart : DataDart :=
        { type := TYPE_DATA, convId := roomId, senderId := me.senderId, seq := s.nextSeq, payload }
      Prog.modify (enterSent C me roomId epoch payload myChain)
      let t ← Prog.get
      let nonce ← randomBytes me 12
      let buf ← Prog.ofOption (encodeData C A F.deflate t.codec dart
        (getDictionary me t me.senderId s.nextSeq) (advanceChain C myChain myChain.index).1
        myChain.index epoch nonce)
      sendOk buf
      Prog.modify (probeAgain roomId)
    | _, _ => Prog.modify fun s => { s with pendingQueue := s.pendingQueue ++ [payload] }

/-! ### Sharing keys and chains -/

/-- One group-key share.  A member whose key is no point is skipped. -/
def sendKeyShare (convId epoch : ℕ) (key : Buffer) (roster : NumMap Buffer) (mId : ℕ) :
    Locked Unit := do
  match (roster.get mId).bind (pairwiseKey C me.privateKey) with
  | none => pure ()
  | some transportKey =>
    let nonce ← randomBytes me 12
    let share : KeyShareDart :=
      { type := TYPE_KEY_SHARE, convId, senderId := me.senderId, targetId := mId, epoch, nonce,
        encryptedKey := key }
    let out ← Prog.ofOption (encodeKeyShare C A share transportKey)
    sendOk out

def shareWithNewMembers (convId : ℕ) : Locked Unit := do
  let s ← Prog.get
  match s.codec.convKeys.get convId with
  | none => pure ()
  | some key =>
    let epoch := s.sendingEpoch convId
    let roster := (s.roster.get convId).getD ∅
    let done := (s.sharedWith.get convId).getD ∅
    let targets := shareTargets me roster done
    Prog.modify fun s =>
      { s with sharedWith := s.sharedWith.set convId (done ∪ targets.toFinset) }
    if targets = [] then pure ()
    else
      Prog.forEach (sendKeyShare C A me convId epoch key roster) targets
      let retry := ShareRetry.key convId epoch key targets roster
      Prog.modify fun s => { s with shareTimers := s.shareTimers ++ [retry, retry] }

/-- One chain share, to the key the present roster has for the member. -/
def sendChainShare (convId epoch targetId : ℕ) (chain : ChainState) : Locked Unit := do
  let s ← Prog.get
  match (get₂ s.roster convId targetId).bind (pairwiseKey C me.privateKey) with
  | none => pure ()
  | some transportKey =>
    let nonce ← randomBytes me 12
    let share : ChainShareDart :=
      { type := TYPE_CHAIN_SHARE, convId, senderId := me.senderId, targetId, epoch, nonce,
        chainKey := chain.key, chainIndex := chain.index }
    let out ← Prog.ofOption (encodeChainShare C A share transportKey)
    sendOk out

def shareChainWithMembers (convId epoch : ℕ) : Locked Unit := do
  let s ← Prog.get
  match s.getChain convId epoch me.senderId with
  | none => pure ()
  | some myChain =>
    let done := (s.chainSharedWith.get convId).getD ∅
    let targets := shareTargets me ((s.roster.get convId).getD ∅) done
    Prog.modify fun s =>
      { s with chainSharedWith := s.chainSharedWith.set convId (done ∪ targets.toFinset) }
    if targets = [] then pure ()
    else
      Prog.forEach (fun mId => sendChainShare C A me convId epoch mId myChain) targets
      let retry := ShareRetry.chain convId epoch targets myChain
      Prog.modify fun s => { s with shareTimers := s.shareTimers ++ [retry, retry] }

/-- Enter a fresh own chain and its seed. -/
def startChain (convId epoch : ℕ) (seed : Buffer) (s : NativeDartClient) : NativeDartClient :=
  { s.setChain convId epoch me.senderId ⟨seed, 0⟩ with
    chainSeeds := set₂ s.chainSeeds convId epoch ⟨seed, 0⟩
    chainSharedWith := s.chainSharedWith.set convId ∅ }

def initOwnChain (convId epoch : ℕ) : Locked Unit := do
  let seed ← randomBytes me 32
  Prog.modify (startChain me convId epoch seed)
  shareChainWithMembers C A me convId epoch

/-! ### Adopting and rotating keys -/

def scheduleRekey (convId : ℕ) : Locked Unit :=
  Prog.modify fun s => { s with rekeyTimer := some convId }

/-- Enter a group key and its epoch. -/
def installKey (convId epoch : ℕ) (key : Buffer) (s : NativeDartClient) : NativeDartClient :=
  { s with
    codec :=
      { convKeys := s.codec.convKeys.set convId key
        currentEpochs := s.codec.currentEpochs.set convId epoch }
    roomKeys := set₂ s.roomKeys convId epoch key
    sharedWith := s.sharedWith.set convId ∅ }

/-- Forget group keys more than four epochs back; the sum has 16 bits. -/
def pruneEpochs (convId : ℕ) (s : NativeDartClient) : NativeDartClient :=
  match s.roomKeys.get convId with
  | none => s
  | some keys =>
    { s with
      roomKeys := s.roomKeys.set convId (keys.retain fun epoch _ =>
        !decide ((epoch + 4) % 2 ^ 16 < s.currentEpoch convId)) }

def pruneOldEpochs (convId : ℕ) : Locked Unit := Prog.modify (pruneEpochs convId)

/-- The end of a roster: share the own chain, and wait for the next rotation. -/
def finishMemberInfo (convId : ℕ) : Locked Unit := do
  let s ← Prog.get
  shareChainWithMembers C A me convId (s.sendingEpoch convId)
  scheduleRekey convId

/-- What follows a call of `adoptKey`. -/
def returnTo (convId : ℕ) : Caller → Locked Unit
  | .keyShare => pure ()
  | .memberInfo => finishMemberInfo C A me convId
  | .rekey => pruneOldEpochs convId
  | .election => do
    pruneOldEpochs convId
    finishMemberInfo C A me convId

/-- The end of `adoptKey`. -/
def finishAdopt (convId : ℕ) (caller : Caller) : Locked Unit := do
  shareWithNewMembers C A me convId
  scheduleRekey convId
  returnTo C A me convId caller

/-- `adoptKey` up to its end, or up to the point where it gives up the lock. -/
def adoptKey (convId epoch : ℕ) (key : Buffer) (caller : Caller) : Locked (Option Waiting) := do
  let s ← Prog.get
  Prog.modify (installKey convId epoch key)
  initOwnChain C A me convId epoch
  if s.codec.convKeys.has convId then
    finishAdopt C A me convId caller
    pure none
  else pure (some (.announce convId caller))

/-- Rotate, when this client is the creator; `skipped` is what follows when it is not. -/
def doRekey (convId : ℕ) (caller : Caller) (skipped : Locked Unit) : Locked (Option Waiting) := do
  let s ← Prog.get
  if s.isCreator.get convId = some true then
    let key ← randomBytes me 32
    adoptKey C A me convId ((s.sendingEpoch convId + 1) % 2 ^ 16) key caller
  else do
    skipped
    pure none

/-- What a goroutine does when it takes the lock again. -/
def resumeWaiting : Waiting → Locked (Option Waiting)
  | .announce convId caller => do
    sendData C A F me convId
      ("User " ++ toString me.senderId ++ " joined the room (Go Native Client)")
    pure (some (.drain convId caller))
  | .drain convId caller => do
    let s ← Prog.get
    if s.pendingQueue = [] then
      finishAdopt C A me convId caller
      pure none
    else pure (some (.flush convId s.pendingQueue caller))
  | .flush convId (pending :: queue) caller => do
    sendData C A F me convId pending
    pure (some (.flush convId queue caller))
  | .flush convId [] caller => do
    Prog.modify fun s => { s with pendingQueue := [] }
    finishAdopt C A me convId caller
    pure none

/-! ### Receiving -/

/-- The newest number of a sender; zero without one. -/
def highestOf (s : NativeDartClient) (senderId : ℕ) : ℕ := (s.highestReceived.get senderId).getD 0

/-- How far a dart is ahead.  Without a baseline the first dart counts as the next one, unless its
number lies in the window. -/
def dataAhead (s : NativeDartClient) (senderId seq : ℕ) : ℕ :=
  if s.highestReceived.has senderId then seqDelta (highestOf s senderId) seq
  else if 1 ≤ seq ∧ seq ≤ DICT_WINDOW then seq
  else 1

/-- The newest number of a sender after one more: numbers that are not ahead do not count. -/
def raiseHighest (ahead senderId seq : ℕ) (s : NativeDartClient) : NumMap ℕ :=
  if 0 < ahead ∧ ahead < SEQ_MOD / 2 then s.highestReceived.set senderId seq else s.highestReceived

/-- Give a number up.  The placeholder that is stored for it goes with the history. -/
def giveUp (senderId lostSeq : ℕ) (s : NativeDartClient) : NativeDartClient :=
  { s with
    highestReceived :=
      raiseHighest (seqDelta (highestOf s senderId) lostSeq) senderId lostSeq s
    receivedMessages := s.receivedMessages.set senderId ∅
    outOfOrderBuffer := s.outOfOrderBuffer.set senderId ∅ }

def declarePermanentLoss (convId senderId lostSeq : ℕ) : Locked Unit := do
  Prog.modify (giveUp senderId lostSeq)
  sendDictReset C A me convId senderId

/-- Forget what was received of a sender and ask for a reset. -/
def recover (convId senderId : ℕ) : Locked Unit := do
  Prog.modify fun s => { s with receivedMessages := s.receivedMessages.delete senderId }
  sendDictReset C A me convId senderId

/-- Store a new dart: history, newest number, window, ACK timer. -/
def storeReceived (dart : Dart) (s : NativeDartClient) : NativeDartClient :=
  let d := if s.highestReceived.has dart.senderId then seqDelta (highestOf s dart.senderId) dart.seq
    else 1
  pruneReceived dart.senderId
    { s with
      receivedMessages := set₂ s.receivedMessages dart.senderId dart.seq dart
      highestReceived := raiseHighest d dart.senderId dart.seq s
      ackTimers := s.ackTimers.set dart.senderId (dart.convId, dart.seq) }

/-- Create an empty history when there is none. -/
def ensureReceived (senderId : ℕ) (s : NativeDartClient) : NativeDartClient :=
  if s.receivedMessages.has senderId then s
  else { s with receivedMessages := s.receivedMessages.set senderId ∅ }

def processDataPacket (dec : GoCodec.DecryptedData) (parsedSenderId seq : ℕ) : Locked Unit := do
  if dec.senderId ≠ parsedSenderId then pure ()
  else
    let s ← Prog.get
    let dict := getDictionary me s parsedSenderId seq
    if dec.dictFp ≠ (C.sha256 dict).take DICT_FP_LEN then
      recover C A me dec.convId parsedSenderId
    else
      match F.inflate dec.compressed dict with
      | none => recover C A me dec.convId parsedSenderId
      | some payload =>
        let dart : Dart :=
          { type := TYPE_DATA, convId := dec.convId, senderId := parsedSenderId, seq, payload }
        Prog.modify (ensureReceived parsedSenderId)
        let s ← Prog.get
        if (get₂ s.receivedMessages parsedSenderId seq).isSome then pure ()
        else Prog.modify (storeReceived dart)

/-- Decrypt with the chain of the sender, and move the chain on only when that works. -/
def decryptDataInOrder (buf : Buffer) (senderId : ℕ) : Locked (Option GoCodec.DecryptedData) := do
  let epoch ← Prog.ofOption ((slice buf 21 23).bind uint16)
  let idx ← Prog.ofOption ((slice buf 27 31).bind uint32)
  let convId ← Prog.ofOption ((slice buf 1 3).bind uint16)
  let s ← Prog.get
  match s.getChain convId epoch senderId with
  | none => pure none
  | some chain =>
    if idx < chain.index then pure none
    else
      let (messageKey, state) := advanceChain C chain idx
      let dec ← Prog.ofOption (decryptData C A buf messageKey)
      match dec with
      | none => pure none
      | some dec =>
        Prog.modify fun s => s.setChain convId epoch senderId state
        pure (some dec)

/-- Take a dart out of the buffer. -/
def unbuffer (senderId seq : ℕ) (s : NativeDartClient) : NativeDartClient :=
  match s.outOfOrderBuffer.get senderId with
  | none => s
  | some m => { s with outOfOrderBuffer := s.outOfOrderBuffer.set senderId (m.delete seq) }

/-- One buffered dart. -/
def processBuffered (buf : Buffer) (senderId nextSeq : ℕ) : Locked Unit := do
  let dec ← decryptDataInOrder C A buf senderId
  match dec with
  | none => pure ()
  | some dec =>
    if dec.senderId = senderId then processDataPacket C A F me dec senderId nextSeq else pure ()

/-- The loop over the buffer; every turn takes out one dart, so its size bounds the turns. -/
def drainBuffer (senderId : ℕ) : ℕ → ℕ → Locked Unit
  | 0, _ => pure ()
  | turns + 1, nextSeq => do
    let s ← Prog.get
    match get₂ s.outOfOrderBuffer senderId nextSeq with
    | none => pure ()
    | some buf =>
      Prog.modify (unbuffer senderId nextSeq)
      processBuffered C A F me buf senderId nextSeq
      drainBuffer senderId turns (seqNext nextSeq)

def processBufferedPackets (senderId : ℕ) : Locked Unit := do
  let s ← Prog.get
  match s.outOfOrderBuffer.get senderId with
  | none => pure ()
  | some m => drainBuffer C A F me senderId m.size (seqNext (highestOf s senderId))

/-- One number of a gap: is it asked for?  A number asked for more than four seconds ago counts as lost;
`after` is what follows that. -/
def askFor (convId senderId : ℕ) (after : Locked Unit) (i : ℕ) : Locked Bool := do
  let s ← Prog.get
  if (get₂ s.outOfOrderBuffer senderId i).isSome || (get₂ s.receivedMessages senderId i).isSome then
    pure false
  else
    match get₂ s.nackTimestamps senderId i with
    | none =>
      Prog.modify fun s => { s with nackTimestamps := set₂ s.nackTimestamps senderId i s.clock }
      pure true
    | some ts =>
      if 4000000000 < s.clock - ts then
        declarePermanentLoss C A me convId senderId i
        after
        pure false
      else pure true

/-- The numbers of a gap that are asked for. -/
def missingOf (ask : ℕ → Locked Bool) : List ℕ → Locked (List ℕ)
  | [] => pure []
  | i :: is => do
    let wanted ← ask i
    let rest ← missingOf ask is
    pure (if wanted then i :: rest else rest)

/-- Ask for what is missing, if anything is. -/
def nackMissing (convId senderId : ℕ) (missing : List ℕ) : Locked Unit :=
  if missing = [] then pure () else sendNack C A me convId senderId missing

/-- A dart beyond the next one: buffer it and look at the gap before it. -/
def bufferAhead (buf : Buffer) (convId senderId seq ahead : ℕ) : Locked Unit := do
  let s ← Prog.get
  let highest := highestOf s senderId
  Prog.modify fun s =>
    { s with outOfOrderBuffer := set₂ s.outOfOrderBuffer senderId seq buf }
  let missing ← missingOf (askFor C A me convId senderId (pure ())) (seqsAfter highest (ahead - 1))
  nackMissing C A me convId senderId missing

def handleData (buf : Buffer) : Locked Unit := do
  if buf.length < 7 + 24 then pure ()
  else
    let extLen ← Prog.ofOption (index buf 6)
    if extLen < 24 then pure ()
    else
      let convId ← Prog.ofOption ((slice buf 1 3).bind uint16)
      let seq ← Prog.ofOption ((slice buf 3 6).bind uint24)
      let senderId ← Prog.ofOption ((slice buf 7 9).bind uint16)
      let s ← Prog.get
      let ahead := dataAhead s senderId seq
      if ahead = 0 ∨ SEQ_MOD / 2 ≤ ahead then pure ()
      else if 1 < ahead then bufferAhead C A me buf convId senderId seq ahead
      else
        let dec ← decryptDataInOrder C A buf senderId
        match dec with
        | none => pure ()
        | some dec =>
          processDataPacket C A F me dec senderId seq
          processBufferedPackets C A F me senderId

/-! ### Repairs -/

/-- The frame of a member, signed with its pairwise key and addressed to this client. -/
def openPairwise (s : NativeDartClient) (buf : Buffer) : Option (Option (ℕ × ℕ × Buffer)) := do
  let convId ← (slice buf 1 3).bind uint16
  let senderId ← (slice buf 3 5).bind uint16
  let targetId ← (slice buf 5 7).bind uint16
  if targetId ≠ me.senderId then some none
  else
    match (get₂ s.roster convId senderId).bind (pairwiseKey C me.privateKey) with
    | none => some none
    | some key =>
      let stripped ← GoCodec.verifyControlFrame C buf key
      some (stripped.map fun payload => (convId, senderId, payload))

/-- Send one of the own darts again.  A dart that cannot be encoded goes out empty. -/
def retransmit (seq : ℕ) : Locked Unit := do
  let s ← Prog.get
  match s.sentMessages.get seq, s.messageKeys.get seq with
  | some dart, some mk =>
    let nonce ← randomBytes me 12
    let buf ← Prog.ofOption (encodeData C A F.deflate s.codec dart
      (getDictionary me s me.senderId seq) mk.key mk.idx mk.epoch nonce)
    send (buf.getD [])
  | _, _ => pure ()

/-- Give a member the start of the own chain of the current epoch again. -/
def reshareSeed (convId targetId : ℕ) : Locked Unit := do
  let s ← Prog.get
  let epoch := s.currentEpoch convId
  if epoch = 0 then pure ()
  else
    match get₂ s.chainSeeds convId epoch with
    | none => pure ()
    | some seed => sendChainShare C A me convId epoch targetId seed

def handleNack (buf : Buffer) : Locked Unit := do
  let s ← Prog.get
  let opened ← Prog.ofOption (openPairwise C me s buf)
  match opened with
  | none => pure ()
  | some (convId, senderId, stripped) =>
    let nack ← Prog.ofOption (decodeNack C A s.codec stripped)
    match nack with
    | none => pure ()
    | some nack =>
      Prog.forEach (retransmit C A F me) nack.missingSeq
      reshareSeed C A me convId senderId

/-- A SYNC: ask for what is missing up to the announced number. -/
def requestSync (sync : SyncDart) : Locked Unit := do
  let s ← Prog.get
  let highest := highestOf s sync.senderId
  let ahead := if s.highestReceived.has sync.senderId then seqDelta highest sync.highestSeq
    else sync.highestSeq
  if 0 < ahead ∧ ahead < SEQ_MOD / 2 then
    Prog.modify (ensureReceived sync.senderId)
    let missing ← missingOf
      (askFor C A me sync.convId sync.senderId (processBufferedPackets C A F me sync.senderId))
      (seqsAfter highest ahead)
    nackMissing C A me sync.convId sync.senderId missing
  else pure ()

def handleSync (buf : Buffer) : Locked Unit := do
  let stripped ← Prog.ofOption (GoCodec.stripControlFrame buf)
  match stripped with
  | none => pure ()
  | some stripped =>
    let s ← Prog.get
    let sync ← Prog.ofOption (decodeSync C A s.codec stripped)
    match sync with
    | none => pure ()
    | some sync => requestSync C A F me sync

def handleAck (buf : Buffer) : Locked Unit := do
  let s ← Prog.get
  let opened ← Prog.ofOption (openPairwise C me s buf)
  match opened with
  | none => pure ()
  | some (_, _, stripped) =>
    let ack ← Prog.ofOption (decodeAck C A s.codec stripped)
    match ack with
    | none => pure ()
    | some ack =>
      if seqDelta s.highestSentSeq ack.seq < SEQ_MOD / 2 then
        Prog.modify fun s => { s with ackedSeq := s.ackedSeq.set ack.convId ack.seq }
      else pure ()

/-- The target of a reset flushes what it sent, everybody else what they received of the target. -/
def applyDictReset (targetId : ℕ) (s : NativeDartClient) : NativeDartClient :=
  if targetId = me.senderId then { s with sentMessages := ∅ }
  else { s with receivedMessages := s.receivedMessages.delete targetId }

def handleDictReset (buf : Buffer) : Locked Unit := do
  let stripped ← Prog.ofOption (GoCodec.stripControlFrame buf)
  match stripped with
  | none => pure ()
  | some stripped =>
    let s ← Prog.get
    let reset ← Prog.ofOption (decodeDictReset C A s.codec stripped)
    match reset with
    | none => pure ()
    | some reset => Prog.modify (applyDictReset me reset.targetId)

/-! ### Shares and rosters -/

/-- The transport key of a share addressed to this client by a member of the roster. -/
def shareTransportKey (s : NativeDartClient) (buf : Buffer) : Option (Option (ℕ × Buffer)) := do
  let convId ← (slice buf 1 3).bind uint16
  let senderId ← (slice buf 3 5).bind uint16
  let targetId ← (slice buf 5 7).bind uint16
  if targetId ≠ me.senderId then some none
  else
    match (get₂ s.roster convId senderId).bind (pairwiseKey C me.privateKey) with
    | none => some none
    | some transportKey => some (some (convId, transportKey))

def handleChainShare (buf : Buffer) : Locked Unit := do
  let s ← Prog.get
  let opened ← Prog.ofOption (shareTransportKey C me s buf)
  match opened with
  | none => pure ()
  | some (convId, transportKey) =>
    let decoded ← Prog.ofOption (decodeChainShare C A buf transportKey)
    match decoded with
    | none => pure ()
    | some decoded =>
      Prog.modify fun s =>
        s.setChain convId decoded.epoch decoded.senderId ⟨decoded.chainKey, decoded.chainIndex⟩

/-- Adopt on first join, on a newer epoch, or on an equal epoch with a different key. -/
def shouldAdopt (s : NativeDartClient) (convId epoch : ℕ) (groupKey : Buffer) : Bool :=
  match s.codec.convKeys.get convId with
  | none => true
  | some curKey => decide (s.currentEpoch convId < epoch) ||
    (decide (epoch = s.currentEpoch convId) && decide (curKey ≠ groupKey))

def handleKeyShare (buf : Buffer) : Locked (Option Waiting) := do
  if buf.length < 7 then pure none
  else
    let s ← Prog.get
    let opened ← Prog.ofOption (shareTransportKey C me s buf)
    match opened with
    | none => pure none
    | some (convId, transportKey) =>
      let share ← Prog.ofOption (decodeKeyShare C A buf transportKey)
      match share with
      | none => pure none
      | some (epoch, groupKey) =>
        if shouldAdopt s convId epoch groupKey then
          adoptKey C A me convId epoch groupKey .keyShare
        else pure none

/-- The server key of a roster frame. -/
def memberInfoServerKey (buf : Buffer) : Option Buffer :=
  if buf.length < 70 then none else slice buf 5 70

/-- Take over a roster: remember it, forget the shares of members whose key changed, remember the
server key and the creator flag. -/
def installRoster (info : MemberInfo) (serverPub : Buffer) (s : NativeDartClient) :
    NativeDartClient :=
  let roster := rosterOf info
  let gone := match s.roster.get info.convId with
    | none => ∅
    | some prevRoster => changedMembers prevRoster roster
  { s with
    roster := s.roster.set info.convId roster
    sharedWith := dropDone s.sharedWith info.convId gone
    chainSharedWith := dropDone s.chainSharedWith info.convId gone
    serverPubKeys := s.serverPubKeys.set info.convId serverPub
    isCreator := s.isCreator.set info.convId info.creator }

/-- What follows a roster: a member with a key shares it, and rotates when it just became the creator;
a creator without a key founds the group. -/
def afterRoster (info : MemberInfo) (prevCreator : Bool) : Locked (Option Waiting) := do
  let s ← Prog.get
  if s.codec.convKeys.has info.convId then
    shareWithNewMembers C A me info.convId
    if info.creator && !prevCreator then
      doRekey C A me info.convId .election (finishMemberInfo C A me info.convId)
    else
      finishMemberInfo C A me info.convId
      pure none
  else if info.creator then
    let key ← randomBytes me 32
    adoptKey C A me info.convId 1 key .memberInfo
  else
    finishMemberInfo C A me info.convId
    pure none

def handleMemberInfo (buf : Buffer) : Locked (Option Waiting) := do
  match memberInfoServerKey buf with
  | none => pure none
  | some serverPub =>
    let s ← Prog.get
    if s.serverFingerprint ≠ "" ∧
        DartProtocol.Codec.serverFingerprint C serverPub ≠ s.serverFingerprint then
      pure none
    else
      match pairwiseKey C me.privateKey serverPub with
      | none => pure none
      | some transportKey =>
        let info ← Prog.ofOption (decodeMemberInfo C A buf transportKey)
        match info with
        | none => pure none
        | some info =>
          let prevCreator := (s.isCreator.get info.convId).getD false
          Prog.modify (installRoster info serverPub)
          afterRoster C A me info prevCreator

/-! ### Dispatch -/

/-- The handler of a frame; most of them keep the lock to their end. -/
def handlerOf (typ : ℕ) (buf : Buffer) : Locked (Option Waiting) :=
  if typ = TYPE_DATA then (fun _ => none) <$> handleData C A F me buf
  else if typ = TYPE_CHAIN_SHARE then (fun _ => none) <$> handleChainShare C A me buf
  else if typ = TYPE_NACK then (fun _ => none) <$> handleNack C A F me buf
  else if typ = TYPE_SYNC then (fun _ => none) <$> handleSync C A F me buf
  else if typ = TYPE_ACK then (fun _ => none) <$> handleAck C A me buf
  else if typ = TYPE_KEY_SHARE then handleKeyShare C A me buf
  else if typ = TYPE_MEMBER_INFO then handleMemberInfo C A me buf
  else if typ = TYPE_DICT_RESET then (fun _ => none) <$> handleDictReset C A me buf
  else pure none

def dispatch (buf : Buffer) : Locked (Option Waiting) := do
  if buf.length = 0 then pure none
  else
    let typ ← Prog.ofOption (index buf 0)
    handlerOf C A F me typ buf

/-- A goroutine that gave up the lock waits for its next turn. -/
def park (w : Option Waiting) : Locked Unit :=
  Prog.modify fun s => { s with waiting := s.waiting ++ w.toList }

/-- `handleMessage`: a panic in a handler is recovered from. -/
def handleMessage (buf : Buffer) : Locked Unit := do
  let w ← Prog.attempt (dispatch C A F me buf)
  park w.join

/-! ### Timers and calls -/

def rekey (convId : ℕ) : Locked Unit := do
  let w ← doRekey C A me convId .rekey (pure ())
  park w

/-- The probe announces the newest number and goes on while it is not acknowledged. -/
def runProbe (convId : ℕ) : Locked Unit := do
  sendSync C A me convId
  let s ← Prog.get
  if SEQ_MOD / 2 ≤ seqDelta s.highestSentSeq ((s.ackedSeq.get convId).getD 0) then
    Prog.modify fun s => { s with syncTimers := s.syncTimers ++ [convId] }
  else pure ()

/-- The callback of a share retry. -/
def runShareRetry : ShareRetry → Locked Unit
  | .key convId epoch key targets roster =>
    Prog.forEach (sendKeyShare C A me convId epoch key roster) targets
  | .chain convId epoch targets chain =>
    Prog.forEach (fun mId => sendChainShare C A me convId epoch mId chain) targets

def sendKeyReq (roomId : ℕ) : Locked Unit := do
  let reqNonce ← randomBytes me 16
  let req : KeyReqDart :=
    { type := TYPE_KEY_REQ, convId := roomId, senderId := me.senderId, reqNonce,
      clientPubKey := C.getPublicKey me.privateKey }
  let buf ← Prog.ofOption (encodeKeyReq req)
  send (buf.getD [])

def joinRoom (roomId : ℕ) : Locked Unit := do
  sendKeyReq C me roomId
  Prog.modify fun s => { s with joinTimers := s.joinTimers ++ [roomId, roomId, roomId] }

inductive Event
  /-- The application sends. -/
  | sendData (roomId : ℕ) (payload : String)
  | joinRoom (roomId : ℕ)
  /-- A datagram, or a frame of the TCP fallback. -/
  | message (buf : Buffer)
  /-- The goroutine at this position takes the lock again. -/
  | resume (i : ℕ)
  | rekeyTimer
  | shareTimer (i : ℕ)
  | joinTimer (i : ℕ)
  | syncTimer (i : ℕ)
  | ackTimer (senderId : ℕ)
  | enableFallback
  /-- Time passes. -/
  | tick (ns : ℕ)
  deriving DecidableEq

/-- Run the callback of a timer when it is pending. -/
def fire {α : Type} (pending : NativeDartClient → Option α)
    (clear : NativeDartClient → NativeDartClient) (callback : α → Locked Unit) : Locked Unit := do
  let s ← Prog.get
  match pending s with
  | none => pure ()
  | some a =>
    Prog.modify clear
    callback a

/-- One step: what one goroutine does between taking the lock and giving it up. -/
def step : Event → Locked Unit
  | .sendData roomId payload => GoClient.sendData C A F me roomId payload
  | .joinRoom roomId => GoClient.joinRoom C me roomId
  | .message buf => handleMessage C A F me buf
  | .resume i =>
    fire (fun s => s.waiting[i]?) (fun s => { s with waiting := s.waiting.eraseIdx i }) fun w => do
      let w ← resumeWaiting C A F me w
      park w
  | .rekeyTimer =>
    fire (fun s => s.rekeyTimer) (fun s => { s with rekeyTimer := none }) (rekey C A me)
  | .shareTimer i =>
    fire (fun s => s.shareTimers[i]?) (fun s => { s with shareTimers := s.shareTimers.eraseIdx i })
      (runShareRetry C A me)
  | .joinTimer i =>
    fire (fun s => s.joinTimers[i]?) (fun s => { s with joinTimers := s.joinTimers.eraseIdx i })
      (sendKeyReq C me)
  | .syncTimer i =>
    fire (fun s => s.syncTimers[i]?) (fun s => { s with syncTimers := s.syncTimers.eraseIdx i })
      (runProbe C A me)
  | .ackTimer senderId =>
    fire (fun s => s.ackTimers.get senderId)
      (fun s => { s with ackTimers := s.ackTimers.delete senderId })
      (fun p => sendAck C A me p.1 senderId p.2)
  | .enableFallback => Prog.modify fun s => { s with useFallback := true, tcpConn := true }
  | .tick ns => Prog.modify fun s => { s with clock := s.clock + ns }

/-- A run of a fresh client that pins a server fingerprint, or the empty text for none. -/
def run (fp : String) (es : List Event) : Outcome NativeDartClient Output Unit :=
  Prog.eventLoop (step C A F me) es { serverFingerprint := fp }

/-- The state a fresh client reaches by a list of events. -/
def stateAfter (fp : String) (es : List Event) : NativeDartClient := (run C A F me fp es).state

theorem stateAfter_concat (fp : String) (es : List Event) (e : Event) :
    stateAfter C A F me fp (es ++ [e]) = (step C A F me e (stateAfter C A F me fp es)).state := by
  rw [stateAfter, run, Prog.eventLoop_append]
  rfl

end DartProtocol.GoClient
